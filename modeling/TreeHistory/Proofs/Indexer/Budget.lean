import Mathlib
import TreeHistory.Proofs.Indexer.Reachable
import TreeHistory.Proofs.Ingest.Allocation
import TreeHistory.Proofs.Store.Batching

/-!
# The ids a run hands out stay within its budget

`Reachable` counts, for every revision tried, one id per change and one per row a copy may read.
The count is an honest bound: a copy reads each row of the tree it copies at most once
(`copiesWithin_of_forest`), as the rows holding a revision form a forest (`Forest`). Within the
largest 64-bit value, the counter never wraps and stays above every stored id
(`Reachable.withinBudget`).
-/

namespace TreeHistory

/-- Rows of the tree as of one revision: distinct ids, and a parent's path sorts before its
child's. -/
structure Forest (rows : List NodeRecord) : Prop where
  ids : (rows.map (·.id)).Nodup
  parentBefore : ∀ x ∈ rows, ∀ y ∈ rows, x.parent = y.id → y.path < x.path

/-- The row `x` lies below the node `q` among `rows`: its parent is `q`, or a row below `q`. -/
inductive Below (rows : List NodeRecord) (q : NodeId) : NodeRecord → Prop
  | child {x : NodeRecord} : x ∈ rows → x.parent = q → Below rows q x
  | under {x y : NodeRecord} : Below rows q y → x ∈ rows → x.parent = y.id → Below rows q x

namespace Below

variable {rows : List NodeRecord} {q : NodeId} {x : NodeRecord}

theorem mem (below : Below rows q x) : x ∈ rows := by
  cases below with
  | child mem _ => exact mem
  | under _ mem _ => exact mem

/-- What is below a child of `q` is below `q`. -/
theorem of_child {c : NodeRecord} (childMem : c ∈ rows) (isChild : c.parent = q)
    (below : Below rows c.id x) : Below rows q x := by
  induction below with
  | child mem parent => exact .under (.child childMem isChild) mem parent
  | under _ mem parent below => exact .under below mem parent

end Below

namespace Forest

variable {rows : List NodeRecord}

theorem eq_of_id (forest : Forest rows) {x y : NodeRecord} (xMem : x ∈ rows) (yMem : y ∈ rows)
    (same : x.id = y.id) : x = y :=
  List.inj_on_of_nodup_map forest.ids xMem yMem same

/-- Paths grow going down. -/
theorem path_lt (forest : Forest rows) {y x : NodeRecord} (yMem : y ∈ rows)
    (below : Below rows y.id x) : y.path < x.path := by
  induction below with
  | child mem parent => exact forest.parentBefore _ mem y yMem parent
  | under below' mem parent lt =>
    exact lt_trans lt (forest.parentBefore _ mem _ below'.mem parent)

/-- Two rows above a common row are one above the other: going up from a row, each step has one
row to go to. -/
theorem comparable (forest : Forest rows) {c₁ c₂ x : NodeRecord} (mem₁ : c₁ ∈ rows)
    (mem₂ : c₂ ∈ rows) (above₁ : Below rows c₁.id x) (above₂ : x = c₂ ∨ Below rows c₂.id x) :
    c₁ = c₂ ∨ Below rows c₁.id c₂ ∨ Below rows c₂.id c₁ := by
  revert above₂
  induction above₁ with
  | @child x xMem parent =>
    rintro (rfl | above₂)
    · exact .inr (.inl (.child xMem parent))
    cases above₂ with
    | child _ parent₂ => exact .inl (forest.eq_of_id mem₁ mem₂ (parent.symm.trans parent₂))
    | @under _ y below₂ _ parent₂ =>
      -- The row above `x` is `c₁`, and it is below `c₂`.
      have same : y = c₁ := forest.eq_of_id below₂.mem mem₁ (parent₂.symm.trans parent)
      exact .inr (.inr (same ▸ below₂))
  | @under x y belowY xMem parent above =>
    rintro (rfl | above₂)
    · exact .inr (.inl (.under belowY xMem parent))
    -- Going up from `x` on the side of `c₂` reaches `y` too.
    cases above₂ with
    | child _ parent₂ =>
      exact above (.inl (forest.eq_of_id belowY.mem mem₂ (parent.symm.trans parent₂)))
    | @under _ y' below₂ _ parent₂ =>
      have same : y' = y := forest.eq_of_id below₂.mem belowY.mem (parent₂.symm.trans parent)
      exact above (.inr (same ▸ below₂))

/-- A row is never below a row with the same parent, itself included. -/
theorem not_below_sibling (forest : Forest rows) {c₁ c₂ : NodeRecord} (mem₁ : c₁ ∈ rows)
    (siblings : c₁.parent = c₂.parent) : ¬ Below rows c₁.id c₂ := by
  intro below
  cases below with
  | child _ parent =>
    -- `c₁` would be its own parent.
    exact lt_irrefl _ (forest.parentBefore c₁ mem₁ c₁ mem₁ (siblings.trans parent))
  | @under _ y belowY _ parent =>
    -- The parent of `c₁` would be a row below `c₁`.
    exact lt_asymm (forest.path_lt mem₁ belowY)
      (forest.parentBefore c₁ mem₁ y belowY.mem (siblings.trans parent))

/-- Two children of one node have no row in common at or below them. -/
theorem apart_of_siblings (forest : Forest rows) {c₁ c₂ x : NodeRecord} (mem₁ : c₁ ∈ rows)
    (mem₂ : c₂ ∈ rows) (siblings : c₁.parent = c₂.parent) (differ : c₁ ≠ c₂)
    (near₁ : x = c₁ ∨ Below rows c₁.id x) (near₂ : x = c₂ ∨ Below rows c₂.id x) : False := by
  rcases near₁ with rfl | below₁
  · rcases near₂ with same | below₂
    · exact differ same
    · exact forest.not_below_sibling mem₂ siblings.symm below₂
  · rcases forest.comparable mem₁ mem₂ below₁ near₂ with same | below | below
    · exact differ same
    · exact forest.not_below_sibling mem₁ siblings below
    · exact forest.not_below_sibling mem₂ siblings.symm below

end Forest

namespace Tables

open History

variable {t : Tables} {history : History}

/-- The rows of tables that record a history form a forest as of every revision: up to the
largest value they are the records of the tree as of it, and past it no row holds. -/
theorem Records.forest (records : t.Records history) (valid : history.Valid) (r : Revnum) :
    Forest (t.nodes.filter (·.covers r)) := by
  refine ⟨records.ids.sublist (List.filter_sublist.map _), ?_⟩
  intro x xMem y yMem parent
  have holdsR : ∀ {row : NodeRecord}, row ∈ t.nodes.filter (·.covers r) →
      row ∈ t.nodes ∧ row.revMin ≤ r ∧ r ≤ row.revMax := by
    intro row mem
    obtain ⟨rowMem, covers⟩ := List.mem_filter.1 mem
    simp only [NodeRecord.covers, Bool.and_eq_true, decide_eq_true_eq] at covers
    exact ⟨rowMem, covers⟩
  have bounded : r ≤ Revnum.head :=
    le_trans (holdsR xMem).2.2 (records.revMax_le valid (holdsR xMem).1)
  have recorded : ∀ {row : NodeRecord}, row ∈ t.nodes.filter (·.covers r) →
      row.live ∈ (treeAt history r).records :=
    fun mem => (records.covering r bounded).subset (List.mem_map_of_mem mem)
  have wf := valid.treeAt_wellFormed r
  obtain ⟨nx, nxMem, nxRoot, nxRecord⟩ := LiveTree.mem_records.1 (recorded xMem)
  obtain ⟨ny, nyMem, -, nyRecord⟩ := LiveTree.mem_records.1 (recorded yMem)
  obtain ⟨p, pMem, pId, -, split⟩ := wf.parentMem nx nxMem nxRoot
  -- The tree's parent of `x`'s node is `y`'s node.
  have same : p = ny := by
    refine wf.eq_of_id_eq pMem nyMem ?_
    rw [pId]
    calc nx.parent = x.parent := congrArg NodeRecord.parent nxRecord
      _ = y.id := parent
      _ = ny.id := (congrArg NodeRecord.id nyRecord).symm
  have xPath : nx.path = x.path := congrArg NodeRecord.path nxRecord
  have yPath : ny.path = y.path := congrArg NodeRecord.path nyRecord
  rw [← xPath, ← yPath, ← same]
  exact Path.split_lt split

end Tables

/-! ## A copy reads each row once -/

namespace Ingestor

/-- The rows a copy of what `source` held at `copyRevision` reads, with `fuel` levels to go: each
child, then what is below it if it is a directory. -/
def copied (store : Store) (copyRevision : Revnum) : Nat → NodeId → List NodeRecord
  | 0, _ => []
  | fuel + 1, source =>
    ((store.children source copyRevision).toOption.getD []).flatMap fun child =>
      child :: if child.kind.isDir then copied store copyRevision fuel child.id else []

variable {store : Store} {copyRevision : Revnum}

theorem length_copied :
    ∀ fuel source, (copied store copyRevision fuel source).length = copyCount store copyRevision fuel source
  | 0, _ => rfl
  | fuel + 1, source => by
    rw [copied, copyCount, List.length_flatMap]
    congr 1
    refine List.map_congr_left fun child _ => ?_
    split
    · rw [List.length_cons, length_copied fuel child.id]
    · rfl

variable {engine : Engine} {lawful : engine.Lawful} {t : Tables} {txOpen : Bool}

/-- What a copy reads are rows that hold the copy's revision, below its source. -/
theorem below_of_mem_copied (holds : store.Holds lawful t txOpen) :
    ∀ fuel source {x : NodeRecord}, x ∈ copied store copyRevision fuel source →
      Below (t.nodes.filter (·.covers copyRevision)) source x
  | 0, _, _, mem => nomatch mem
  | fuel + 1, source, x, mem => by
    obtain ⟨children, listed, perm, -⟩ := holds.children source copyRevision
    rw [copied, listed] at mem
    obtain ⟨child, childMem, near⟩ := List.mem_flatMap.1 mem
    obtain ⟨rowMem, rowMatches⟩ := List.mem_filter.1 (perm.subset childMem)
    simp only [Bool.and_eq_true, beq_iff_eq] at rowMatches
    have covering : child ∈ t.nodes.filter (·.covers copyRevision) :=
      List.mem_filter.2 ⟨rowMem, rowMatches.2⟩
    rcases List.mem_cons.1 near with rfl | deeper
    · exact .child covering rowMatches.1
    · split at deeper
      · exact (below_of_mem_copied holds fuel child.id deeper).of_child covering rowMatches.1
      · exact nomatch deeper

/-- A copy reads no row twice. -/
theorem nodup_copied (holds : store.Holds lawful t txOpen)
    (forest : Forest (t.nodes.filter (·.covers copyRevision))) :
    ∀ fuel source, (copied store copyRevision fuel source).Nodup
  | 0, _ => List.nodup_nil
  | fuel + 1, source => by
    obtain ⟨children, listed, perm, -⟩ := holds.children source copyRevision
    rw [copied, listed]
    have listedMem : ∀ child ∈ children,
        child ∈ t.nodes.filter (·.covers copyRevision) ∧ child.parent = source := by
      intro child mem
      obtain ⟨rowMem, rowMatches⟩ := List.mem_filter.1 (perm.subset mem)
      simp only [Bool.and_eq_true, beq_iff_eq] at rowMatches
      exact ⟨List.mem_filter.2 ⟨rowMem, rowMatches.2⟩, rowMatches.1⟩
    have distinct : children.Nodup := by
      refine perm.nodup_iff.2 ?_
      rw [← List.filter_filter]
      exact (forest.ids.of_map _).filter _
    -- What a child's part of the copy reads is the child or below it.
    have near : ∀ child ∈ children, ∀ x ∈ (child ::
        if child.kind.isDir then copied store copyRevision fuel child.id else []),
        x = child ∨ Below (t.nodes.filter (·.covers copyRevision)) child.id x := by
      intro child _ x mem
      rcases List.mem_cons.1 mem with rfl | deeper
      · exact .inl rfl
      · split at deeper
        · exact .inr (below_of_mem_copied holds fuel child.id deeper)
        · exact nomatch deeper
    refine List.nodup_flatMap.2 ⟨fun child mem => ?_, ?_⟩
    · refine List.nodup_cons.2 ⟨fun again => ?_, ?_⟩
      · split at again
        · exact lt_irrefl _ ((forest.path_lt (listedMem child mem).1
            (below_of_mem_copied holds fuel child.id again)))
        · exact nomatch again
      · split
        · exact nodup_copied holds forest fuel child.id
        · exact List.nodup_nil
    · -- Two children's parts share no row.
      refine distinct.imp_of_mem fun {c₁ c₂} mem₁ mem₂ differ x read₁ read₂ => ?_
      exact forest.apart_of_siblings (listedMem c₁ mem₁).1 (listedMem c₂ mem₂).1
        ((listedMem c₁ mem₁).2.trans (listedMem c₂ mem₂).2.symm) differ
        (near c₁ mem₁ x read₁) (near c₂ mem₂ x read₂)

/-- A copy reads at most as many rows as the node table has. -/
theorem copyCount_le (holds : store.Holds lawful t txOpen)
    (forest : Forest (t.nodes.filter (·.covers copyRevision))) (fuel : Nat) (source : NodeId) :
    copyCount store copyRevision fuel source ≤ t.nodes.length := by
  rw [← length_copied]
  calc (copied store copyRevision fuel source).length
      ≤ (t.nodes.filter (·.covers copyRevision)).length :=
        ((nodup_copied holds forest fuel source).subperm
          fun x mem => (below_of_mem_copied holds fuel source mem).mem).length_le
    _ ≤ t.nodes.length := List.length_filter_le _ _

/-- Tables whose rows of every revision form a forest give copies that read at most their number
of node rows. -/
theorem copiesWithin_of_forest (holds : store.Holds lawful t txOpen)
    (forest : ∀ r, Forest (t.nodes.filter (·.covers r))) : CopiesWithin store store.nodeCount := by
  intro copyRevision source
  rw [holds.nodeCount]
  exact copyCount_le holds (forest copyRevision) _ source

/-- Taking the plan, whether or not it succeeds, starts a new schedule and changes nothing else. -/
theorem run_takePlan_fst (s : Ingestor) : (s.run takePlan).1 = { s with schedule := {} } := by
  unfold takePlan
  rw [run_bind, run_get]
  dsimp only
  rw [run_bind, run_set]
  dsimp only
  cases Schedule.plan s.tree s.schedule with
  | error e => rfl
  | ok plan => rfl

end Ingestor

/-- The nodes a plan creates were recorded as created in its schedule. -/
theorem Schedule.created_of_plan {tree : LiveTree} {schedule : Schedule} {plan : Plan}
    (planned : Schedule.plan tree schedule = .ok plan) :
    ∀ node ∈ plan.created, node.record.id ∈ schedule.created := by
  intro node mem
  unfold Schedule.plan at planned
  obtain ⟨nodes, made, planEq⟩ := Except.bind_eq_ok.1 planned
  simp only [pure, Except.pure, Except.ok.injEq] at planEq
  subst planEq
  obtain ⟨fromIds, -⟩ := Except.mapM_eq_ok made
  obtain ⟨id, idMem, lookedUp⟩ := fromIds node mem
  cases found : tree.node? id with
  | none => simp [found] at lookedUp
  | some live =>
    simp only [found, Except.ok.injEq] at lookedUp
    subst lookedUp
    have sameId : live.id = id := by simpa using List.find?_some found
    simpa [sameId] using (List.mem_filter.1 idMem).1

namespace Store

variable {engine : Engine} {lawful : engine.Lawful} {store : Store} {t t' : Tables}
  {txOpen txOpen' : Bool}

/-- A lawful engine's connection holds one set of tables. -/
theorem Holds.tables_eq (holds : store.Holds lawful t txOpen) (holds' : store.Holds lawful t' txOpen') :
    t = t' :=
  Option.some.inj (holds.tables.symm.trans holds'.tables)

end Store

namespace Transaction

variable {engine : Engine} {lawful : engine.Lawful}

/-- Inserting the revision row adds it to the tables the transaction's store holds. -/
theorem insertRevision_holds {tx tx' : Transaction} {t : Tables} {info : RevisionInfo}
    (holds : tx.store.Holds lawful t true) (inserted : tx.insertRevision info = (tx', .ok ())) :
    tx'.store.Holds lawful { t with revisions := t.revisions ++ [info] } true := by
  obtain ⟨matching, -, -⟩ := insertRevision_ran inserted
  rw [insertRevision_eq tx info matching, Prod.mk.injEq] at inserted
  obtain ⟨rfl, ran⟩ := inserted
  obtain ⟨ranHolds, result⟩ := holds.exec (.insertRevision info)
  rw [ran] at result
  have admitted := Tables.exec_eq_ok_iff.1 (Prod.ext rfl result.symm)
  have applied : (t.exec (.insertRevision info)).1 = { t with revisions := t.revisions ++ [info] } :=
    admitted.2
  rw [applied] at ranHolds
  exact ranHolds

end Transaction

namespace Indexer

variable {engine : Engine} {lawful : engine.Lawful}

/-- The ingestor a revision leaves. -/
theorem writeRevision_ingestor {indexer : Indexer} {t : Tables} {changeSet : ChangeSet}
    (holds : indexer.store.Holds lawful t false) :
    (indexer.writeRevision changeSet).1 = indexer.ingestor ∨
      ∃ opened : Store,
        opened.Holds lawful { t with revisions := t.revisions ++ [changeSet.info] } true ∧
        ((indexer.writeRevision changeSet).1 =
            (indexer.ingestor.run (Ingestor.apply opened changeSet)).1 ∨
          ∃ applied, indexer.ingestor.run (Ingestor.apply opened changeSet) = (applied, .ok ()) ∧
            (indexer.writeRevision changeSet).1 = (applied.run Ingestor.takePlan).1) := by
  unfold writeRevision
  obtain ⟨opening, began⟩ : ∃ opening,
      Transaction.begin indexer.store changeSet.revision indexer.capacity = opening := ⟨_, rfl⟩
  rw [began]
  cases opening with
  | error e => exact .inl rfl
  | ok tx =>
    obtain ⟨-, beginStore, -, -, -⟩ := Transaction.begin_eq_ok began
    have txHolds : tx.store.Holds lawful t true := by
      have opened := holds.begin.1
      rwa [beginStore] at opened
    obtain ⟨⟨tx₁, result⟩, inserted⟩ : ∃ step, tx.insertRevision changeSet.info = step := ⟨_, rfl⟩
    dsimp only
    rw [inserted]
    cases result with
    | error e => exact .inl rfl
    | ok u =>
      refine .inr ⟨tx₁.store, Transaction.insertRevision_holds txHolds inserted, ?_⟩
      obtain ⟨⟨applied, result₂⟩, applying⟩ : ∃ step,
          indexer.ingestor.run (Ingestor.apply tx₁.store changeSet) = step := ⟨_, rfl⟩
      dsimp only
      rw [applying]
      cases result₂ with
      | error e => exact .inl rfl
      | ok u =>
        refine .inr ⟨applied, rfl, ?_⟩
        obtain ⟨⟨planned, result₃⟩, planning⟩ : ∃ step, applied.run Ingestor.takePlan = step :=
          ⟨_, rfl⟩
        dsimp only
        rw [planning]
        cases result₃ with
        | error e => rfl
        | ok plan =>
          -- However the writes end, the ingestor is the one that took the plan.
          dsimp only
          split <;> (try split) <;> rfl

section
variable {indexer : Indexer} {t : Tables} {changeSet : ChangeSet}
  (holds : indexer.store.Holds lawful t false) (forest : ∀ r, Forest (t.nodes.filter (·.covers r)))
  (nonneg : 0 ≤ indexer.ingestor.lastId)
  (room : indexer.ingestor.lastId + changeSet.changes.length * (indexer.store.nodeCount + 1) ≤
    Revnum.head)
include holds forest nonneg room

/-- Applying the change set against the tables with the revision row hands out at most the
revision's share of the budget, in increasing order. -/
theorem apply_allocates {opened : Store}
    (openedHolds : opened.Holds lawful { t with revisions := t.revisions ++ [changeSet.info] } true) :
    indexer.ingestor.lastId ≤ (indexer.ingestor.run (Ingestor.apply opened changeSet)).1.lastId ∧
      (indexer.ingestor.run (Ingestor.apply opened changeSet)).1.lastId ≤
        indexer.ingestor.lastId + changeSet.changes.length * (indexer.store.nodeCount + 1) ∧
      ∃ fresh, (indexer.ingestor.run (Ingestor.apply opened changeSet)).1.schedule.created =
          indexer.ingestor.schedule.created ++ fresh ∧
        (∀ id ∈ fresh, indexer.ingestor.lastId < id ∧
          id ≤ (indexer.ingestor.run (Ingestor.apply opened changeSet)).1.lastId) ∧
        fresh.Pairwise (· < ·) := by
  have counts : opened.nodeCount = indexer.store.nodeCount :=
    openedHolds.nodeCount.trans holds.nodeCount.symm
  have allocates := Ingestor.allocates_apply (Ingestor.copiesWithin_of_forest openedHolds forest)
    changeSet indexer.ingestor
  rw [counts] at allocates
  obtain ⟨up, within, fresh, created, freshIds, sorted⟩ := allocates nonneg room
  exact ⟨up, within, fresh, created, freshIds, sorted⟩

/-- Writing a revision moves the id counter up by at most the revision's share of the budget. -/
theorem writeRevision_lastId :
    indexer.ingestor.lastId ≤ (indexer.writeRevision changeSet).1.lastId ∧
      (indexer.writeRevision changeSet).1.lastId ≤
        indexer.ingestor.lastId + changeSet.changes.length * (indexer.store.nodeCount + 1) := by
  rcases writeRevision_ingestor holds with same | ⟨opened, openedHolds, applied | ⟨applied, applying, planned⟩⟩
  · rw [same]
    have share : (0 : Int) ≤ changeSet.changes.length * (indexer.store.nodeCount + 1) := by
      positivity
    exact ⟨le_refl _, le_add_of_nonneg_right share⟩
  · obtain ⟨up, within, -⟩ := apply_allocates holds forest nonneg room openedHolds
    rw [applied]
    exact ⟨up, within⟩
  · obtain ⟨up, within, -⟩ := apply_allocates holds forest nonneg room openedHolds
    rw [applying] at up within
    rw [planned, Ingestor.run_takePlan_fst]
    exact ⟨up, within⟩

/-- The rows a revision commits: the old rows, with their ids and openings, and the nodes it
created, opened at the revision with ids it handed out. -/
theorem writeRevision_rows (bounded : changeSet.revision ≤ Revnum.head)
    (idle : indexer.ingestor.schedule.created = []) {ingestor : Ingestor} {store : Store}
    {summary : RevisionSummary} (written : indexer.writeRevision changeSet = (ingestor, .ok (store, summary)))
    {t' : Tables} (committed : store.Holds lawful t' false) :
    ∀ row ∈ t'.nodes, (∃ old ∈ t.nodes, row.id = old.id ∧ row.revMin = old.revMin) ∨
      (indexer.ingestor.lastId < row.id ∧ row.id ≤ ingestor.lastId ∧
        row.revMin = changeSet.revision) := by
  obtain ⟨opened, applied, plan, t'', openedHolds, applying, planning, storeHolds, recorded⟩ :=
    writeRevision_tables holds bounded written
  obtain ⟨rfl, planned⟩ := Ingestor.run_takePlan planning
  have same := committed.tables_eq storeHolds
  subst same
  obtain ⟨-, -, fresh, createdEq, freshIds, -⟩ :=
    apply_allocates holds forest nonneg room openedHolds
  rw [applying, idle, List.nil_append] at createdEq
  rw [applying] at freshIds
  intro row mem
  rcases List.mem_append.1 (recorded.nodes.subset mem) with kept | made
  · obtain ⟨old, oldMem, rfl⟩ := List.mem_map.1 kept
    exact .inl ⟨old, oldMem, by simp, by simp⟩
  · obtain ⟨node, nodeMem, rfl⟩ := List.mem_map.1 made
    have handedOut := Schedule.created_of_plan planned node nodeMem
    rw [createdEq] at handedOut
    obtain ⟨above, within⟩ := freshIds _ handedOut
    exact .inr ⟨above, within, (recorded.opened node nodeMem).1⟩

end

/-- A revision that commits leaves the ingestor with a new schedule. -/
theorem writeRevision_idle {indexer : Indexer} {t : Tables} {changeSet : ChangeSet}
    (holds : indexer.store.Holds lawful t false) (bounded : changeSet.revision ≤ Revnum.head)
    {ingestor : Ingestor} {store : Store} {summary : RevisionSummary}
    (written : indexer.writeRevision changeSet = (ingestor, .ok (store, summary))) :
    ingestor.schedule.created = [] := by
  obtain ⟨_, _, _, _, _, _, planning, _, _⟩ := writeRevision_tables holds bounded written
  rw [(Ingestor.run_takePlan planning).1]

/-! ## The counter over a run -/

/-- The largest id among `ids`, zero for none, is at least each of them. -/
theorem le_max?_getD {ids : List NodeId} {id : NodeId} (mem : id ∈ ids) : id ≤ ids.max?.getD 0 := by
  cases largest : ids.max? with
  | none => exact absurd mem (List.max?_eq_none_iff.1 largest ▸ List.not_mem_nil)
  | some most => exact (List.max?_eq_some_iff.1 largest).2 id mem

theorem max?_getD_le {ids : List NodeId} {bound : NodeId} (nonneg : 0 ≤ bound)
    (below : ∀ id ∈ ids, id ≤ bound) : ids.max?.getD 0 ≤ bound := by
  cases largest : ids.max? with
  | none => exact nonneg
  | some most => exact below most (List.max?_eq_some_iff.1 largest).1

/-- The ids a state has handed out fit in what its run spent: the counter lies between zero and
the amount spent and above every stored id. -/
structure WithinBudget (lawful : engine.Lawful) (indexer : Indexer) (spent : Nat) : Prop where
  nonneg : 0 ≤ indexer.ingestor.lastId
  counted : indexer.ingestor.lastId ≤ spent
  stored : ∀ t, indexer.store.Holds lawful t false → ∀ row ∈ t.nodes, row.id ≤ indexer.ingestor.lastId
  idle : indexer.diverged = false → indexer.ingestor.schedule.created = []

namespace WithinBudget

variable {indexer indexer' : Indexer} {history : History} {spent : Nat}

theorem mono (within : WithinBudget lawful indexer spent) {spent' : Nat} (more : spent ≤ spent') :
    WithinBudget lawful indexer spent' :=
  ⟨within.nonneg, le_trans within.counted (by exact_mod_cast more), within.stored, within.idle⟩

/-- Rebuilding the live tree keeps the counter, which is already above every stored id. -/
theorem of_recover (within : WithinBudget lawful indexer spent)
    (consistent : Consistent lawful indexer history) (recovered : indexer.recover = .ok indexer') :
    WithinBudget lawful indexer' spent := by
  obtain ⟨t, holds, records⟩ := consistent.stored
  obtain ⟨tree, -, -, rebuilt⟩ := recover_eq_ok indexer holds records consistent.valid
  rw [rebuilt, Except.ok.injEq] at recovered
  subst recovered
  have kept : max ((t.nodes.map (·.id)).max?.getD 0) indexer.ingestor.lastId =
      indexer.ingestor.lastId :=
    max_eq_right (max?_getD_le within.nonneg fun id mem => by
      obtain ⟨row, rowMem, rfl⟩ := List.mem_map.1 mem
      exact within.stored t holds row rowMem)
  exact ⟨by simpa [kept] using within.nonneg, by simpa [kept] using within.counted,
    fun t' holds' => by simpa [kept] using within.stored t' holds', fun _ => rfl⟩

/-- Opening a store again starts the counter at its largest id, no more than the counter was. -/
theorem of_ofStore (within : WithinBudget lawful indexer spent)
    (consistent : Consistent lawful indexer history) {capacity : Nat}
    (opened : ofStore indexer.store capacity = .ok indexer') :
    WithinBudget lawful indexer' spent := by
  obtain ⟨t, holds, records⟩ := consistent.stored
  obtain ⟨tree, -, -, openedEq⟩ := ofStore_eq_ok holds records consistent.valid capacity
  rw [openedEq, Except.ok.injEq] at opened
  subst opened
  have largest : (t.nodes.map (·.id)).max?.getD 0 ≤ indexer.ingestor.lastId :=
    max?_getD_le within.nonneg fun id mem => by
      obtain ⟨row, rowMem, rfl⟩ := List.mem_map.1 mem
      exact within.stored t holds row rowMem
  refine ⟨le_max_right _ _, max_le (le_trans largest within.counted)
    (le_trans within.nonneg within.counted), fun t' holds' row mem => ?_, fun _ => rfl⟩
  rw [holds'.tables_eq holds] at mem
  exact le_trans (le_max?_getD (List.mem_map_of_mem mem)) (le_max_left _ _)

/-- The indexer a revision starts from, rebuilt when diverged, has the same store and is within
the same budget, consistent and not diverged. -/
theorem ready (within : WithinBudget lawful indexer spent)
    (consistent : Consistent lawful indexer history) {ready : Indexer}
    (readied : (if indexer.diverged then indexer.recover else .ok indexer) = .ok ready) :
    WithinBudget lawful ready spent ∧ Consistent lawful ready history ∧
      ready.store = indexer.store ∧ ready.diverged = false := by
  split at readied
  · obtain ⟨readyConsistent, fresh, sameStore, -⟩ := consistent.of_recover readied
    exact ⟨within.of_recover consistent readied, readyConsistent, sameStore, fresh⟩
  · rename_i notDiverged
    rw [Except.ok.injEq] at readied
    subst readied
    exact ⟨within, consistent, rfl, by simpa using notDiverged⟩

/-- Indexing a revision spends at most its share: one id per change and one per row a copy
reads, for a store of the indexer's size. -/
theorem indexRevision (within : WithinBudget lawful indexer spent)
    (consistent : Consistent lawful indexer history) {changeSet : ChangeSet}
    {result : Except IndexError Outcome} (bounded : changeSet.revision ≤ Revnum.head)
    (budget : spent + changeSet.changes.length * (indexer.store.nodeCount + 1) ≤ Revnum.head)
    (step : indexer.indexRevision changeSet = (indexer', result)) :
    WithinBudget lawful indexer' (spent + changeSet.changes.length * (indexer.store.nodeCount + 1)) := by
  rcases indexRevision_cases step with ⟨rfl, -⟩ | ⟨ready, readied, rest⟩
  · exact within.mono (Nat.le_add_right _ _)
  -- The revision starts from the indexer, rebuilt when diverged: same store, same counter bound.
  obtain ⟨readyWithin, readyConsistent, sameStore, settled⟩ := within.ready consistent readied
  rcases rest with ⟨rfl, -⟩ | ⟨-, -, -, committing⟩
  · exact readyWithin.mono (Nat.le_add_right _ _)
  obtain ⟨t, holds, records⟩ := readyConsistent.stored
  have forest := fun r => records.forest readyConsistent.valid r
  have budget' : (spent : Int) + changeSet.changes.length * (indexer.store.nodeCount + 1) ≤
      Revnum.head := by exact_mod_cast budget
  have room : ready.ingestor.lastId + changeSet.changes.length * (ready.store.nodeCount + 1) ≤
      Revnum.head := by
    rw [sameStore]
    have := readyWithin.counted
    unfold NodeId at *
    omega
  obtain ⟨up, within'⟩ := writeRevision_lastId holds forest readyWithin.nonneg room
  have spentMore : ready.ingestor.lastId + changeSet.changes.length * (ready.store.nodeCount + 1) ≤
      spent + changeSet.changes.length * (indexer.store.nodeCount + 1) := by
    rw [sameStore]
    have := readyWithin.counted
    unfold NodeId at *
    omega
  rcases commitRevision_cases committing with
    ⟨ingestor, store, summary, written, rfl, -⟩ | ⟨ingestor, e, written, rfl, -⟩
  · rw [written] at up within'
    refine ⟨le_trans readyWithin.nonneg up, le_trans within' spentMore, fun t' holds' row mem => ?_,
      fun _ => writeRevision_idle holds bounded written⟩
    rcases writeRevision_rows holds forest readyWithin.nonneg room bounded
        (readyWithin.idle settled) written holds' row mem with ⟨old, oldMem, sameId, -⟩ | ⟨-, made, -⟩
    · rw [sameId]
      exact le_trans (readyWithin.stored t holds old oldMem) up
    · exact made
  · rw [written] at up within'
    exact ⟨le_trans readyWithin.nonneg up, le_trans within' spentMore,
      fun t' holds' row mem => le_trans (readyWithin.stored t' holds' row mem) up,
      fun diverged => nomatch diverged⟩

end WithinBudget

/-- While a run has spent no more than the largest 64-bit value, its id counter never wrapped:
every reachable state is within what its run spent. -/
theorem Reachable.withinBudget {indexer : Indexer} {history : History} {spent : Nat}
    (reach : Reachable lawful indexer history spent) (budget : spent ≤ Revnum.head) :
    WithinBudget lawful indexer spent := by
  induction reach with
  | opened empty opened =>
    rw [ofStore_empty empty, Except.ok.injEq] at opened
    subst opened
    refine ⟨le_refl _, le_refl _, fun t holds row mem => ?_, fun _ => rfl⟩
    rw [holds.tables_eq empty] at mem
    exact nomatch mem
  | reopened reach opened within =>
    have reopened := (within budget).of_ofStore reach.consistent opened
    exact ⟨reopened.nonneg, reopened.counted, reopened.stored, reopened.idle⟩
  | indexed reach bounded step within =>
    have earlier := le_trans (Nat.cast_le.2 (Nat.le_add_right _ _)) budget
    exact (within earlier).indexRevision reach.consistent bounded budget step
  | recovered reach recovered within =>
    exact (within budget).of_recover reach.consistent recovered

end Indexer

end TreeHistory
