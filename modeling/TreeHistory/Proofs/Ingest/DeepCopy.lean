import TreeHistory.Proofs.Indexer.Budget
import TreeHistory.Proofs.Indexer.PointInTime
import TreeHistory.Proofs.Tree.Within

/-!
# What a deep copy makes

`deepCopy` walks what the store held under a source as of a revision and recreates it under a
target path. It reads the store, never the live tree, so its copies are fixed in advance
(`copyTrace`), and it is the loop that makes them one after the other (`deepCopy_eq_forM`).
-/

namespace TreeHistory

/-- The `n` ids handed out after `last`, in order. -/
def NodeId.following (last : NodeId) (n : Nat) : List NodeId :=
  (List.range n).map fun i => NodeId.next^[i + 1] last

theorem NodeId.following_succ (last : NodeId) (n : Nat) :
    NodeId.following last (n + 1) = NodeId.next last :: NodeId.following (NodeId.next last) n := by
  simp only [NodeId.following, List.range_succ_eq_map, List.map_cons, List.map_map, List.cons.injEq]
  exact ⟨rfl, List.map_congr_left fun i _ => Function.iterate_succ_apply NodeId.next (i + 1) last⟩

/-- The schedule with `ids` recorded as created and as made by a copy. -/
def Schedule.recordCopies (schedule : Schedule) (ids : List NodeId) : Schedule :=
  { schedule with created := schedule.created ++ ids, createdSet := schedule.createdSet ++ ids,
                  synthesized := schedule.synthesized ++ ids }

theorem Schedule.recordCopies_append (schedule : Schedule) (first second : List NodeId) :
    (schedule.recordCopies first).recordCopies second = schedule.recordCopies (first ++ second) := by
  simp [Schedule.recordCopies]

namespace Below

variable {rows : List NodeRecord} {q : NodeId} {x : NodeRecord}

/-- Going down from `q` to a row below it starts at a child of `q`. -/
theorem cases_top (below : Below rows q x) :
    x.parent = q ∨ ∃ c ∈ rows, c.parent = q ∧ Below rows c.id x := by
  induction below with
  | child _ parent => exact .inl parent
  | @under x y belowY mem parent above =>
    rcases above with isChild | ⟨c, cMem, cParent, belowC⟩
    · exact .inr ⟨y, belowY.mem, isChild, .child mem parent⟩
    · exact .inr ⟨c, cMem, cParent, .under belowC mem parent⟩

/-- A node with something below it has a child. -/
theorem exists_child (below : Below rows q x) : ∃ c ∈ rows, c.parent = q := by
  induction below with
  | child mem parent => exact ⟨_, mem, parent⟩
  | under _ _ _ above => exact above

end Below

/-- No row is below itself. -/
theorem Forest.not_below_self {rows : List NodeRecord} (forest : Forest rows) {c : NodeRecord}
    (mem : c ∈ rows) : ¬ Below rows c.id c :=
  fun below => lt_irrefl _ (forest.path_lt mem below)

namespace Ingestor

open LiveTree

/-- The copies a deep copy makes under `target`, in order: each child with its path, then the
copies below it if it is a directory. -/
def copyTrace (store : Store) (copyRevision : Revnum) :
    Nat → String → NodeId → List (String × NodeRecord)
  | 0, _, _ => []
  | fuel + 1, target, source =>
    ((store.children source copyRevision).toOption.getD []).flatMap fun child =>
      (Path.join target child.name, child) ::
        if child.kind.isDir then
          copyTrace store copyRevision fuel (Path.join target child.name) child.id
        else []

/-- The node a copy makes for an entry of a trace: at the entry's path, of the row's kind,
inheriting from the row. -/
def copyNode (revision : Revnum) (id : NodeId) (entry : String × NodeRecord) : NewNode :=
  { id := id, revMin := revision, path := entry.1, kind := entry.2.kind,
    predecessor := some { id := entry.2.id, type := .inherit } }

/-- One copy: the next id, the node for the entry, recorded as created and as made by a copy. -/
def copyOne (revision : Revnum) (entry : String × NodeRecord) : IngestM Unit := do
  let id ← allocate
  createNode (copyNode revision id entry)
  updateSchedule fun schedule =>
    { schedule.create id with synthesized := schedule.synthesized ++ [id] }

variable {store : Store} {copyRevision : Revnum}

/-- The rows a deep copy reads are the rows of its trace. -/
theorem map_copyTrace :
    ∀ fuel target source,
      (copyTrace store copyRevision fuel target source).map (·.2) =
        copied store copyRevision fuel source
  | 0, _, _ => rfl
  | fuel + 1, target, source => by
    rw [copyTrace, copied, List.map_flatMap]
    congr 1
    funext child
    split
    · rw [List.map_cons, map_copyTrace fuel]
    · rfl

theorem forM_flatMap {β : Type} {xs : List β} {entries : β → List (String × NodeRecord)}
    {f : String × NodeRecord → IngestM Unit} :
    (xs.flatMap entries).forM f = xs.forM fun x => (entries x).forM f := by
  induction xs with
  | nil => rfl
  | cons x rest restEq =>
    simp only [List.forM_eq_forM] at restEq ⊢
    rw [List.flatMap_cons, List.forM_append, List.forM_cons, restEq]

/-- When the store answers every children query, a deep copy makes the copies of its trace, one
after the other. -/
theorem deepCopy_eq_forM (revision : Revnum)
    (answers : ∀ source, ∃ rows, store.children source copyRevision = .ok rows) :
    ∀ fuel target source, deepCopy store revision fuel target source copyRevision =
      (copyTrace store copyRevision fuel target source).forM (copyOne revision)
  | 0, _, _ => rfl
  | fuel + 1, target, source => by
    obtain ⟨rows, read⟩ := answers source
    rw [deepCopy, copyTrace, read, forM_flatMap]
    show pure rows >>= _ = _
    rw [pure_bind]
    congr 1
    funext child
    -- Each child is copied, then what is below it, by the same loop one level down.
    simp only [List.forM_eq_forM, List.forM_cons, copyOne, copyNode, bind_assoc]
    congr 1
    funext id
    congr 1
    funext u
    congr 1
    funext v
    split
    · exact deepCopy_eq_forM revision answers fuel _ child.id
    · rfl

/-! ## Making the copies one after the other -/

/-- What making a list of copies did: it handed out the next ids in order, one per entry, and kept
every node there was. -/
structure Copied (revision : Revnum) (before after : Ingestor) (copies : List (String × NodeRecord)) :
    Prop where
  lastId : after.lastId = NodeId.next^[copies.length] before.lastId
  wellFormed : after.tree.WellFormed
  made : ∀ i (h : i < copies.length), ∃ node ∈ after.tree.nodes,
    node.id = NodeId.next^[i + 1] before.lastId ∧ node.revMin = revision ∧
      node.path = copies[i].1 ∧ node.kind = copies[i].2.kind ∧
      node.predecessor = some { id := copies[i].2.id, type := .inherit }
  fresh : ∀ i < copies.length, ∀ old ∈ before.tree.nodes, old.id ≠ NodeId.next^[i + 1] before.lastId
  distinct : (NodeId.following before.lastId copies.length).Nodup
  kept : ∀ old ∈ before.tree.nodes, ∃ node ∈ after.tree.nodes, node.toRecord = old.toRecord
  onlyMade : ∀ node ∈ after.tree.nodes, (∃ old ∈ before.tree.nodes, node.toRecord = old.toRecord) ∨
    ∃ i < copies.length, node.id = NodeId.next^[i + 1] before.lastId
  schedule : after.schedule =
    before.schedule.recordCopies (NodeId.following before.lastId copies.length)

variable {revision : Revnum}

/-- One copy creates the node for its entry under the next id. -/
theorem run_copyOne {st st₁ : Ingestor} {entry : String × NodeRecord}
    (ran : st.run (copyOne revision entry) = (st₁, .ok ())) :
    ∃ created, st.tree.create (copyNode revision (NodeId.next st.lastId) entry) = .ok created ∧
      st₁ = { st with lastId := NodeId.next st.lastId, tree := created.1,
                      schedule := st.schedule.recordCopies [NodeId.next st.lastId] } := by
  unfold copyOne at ran
  rw [run_bind, run_allocate] at ran
  dsimp only at ran
  obtain ⟨s₁, u, createRan, scheduleRan⟩ := run_bind_eq_ok.1 ran
  rw [run_createNode] at createRan
  cases creating : st.tree.create (copyNode revision (NodeId.next st.lastId) entry) with
  | error e =>
    rw [creating] at createRan
    simp at createRan
  | ok created =>
    rw [creating] at createRan
    simp only [Prod.mk.injEq] at createRan
    obtain ⟨rfl, -⟩ := createRan
    simp only [run_updateSchedule, Prod.mk.injEq] at scheduleRan
    obtain ⟨rfl, -⟩ := scheduleRan
    exact ⟨created, rfl, rfl⟩

/-- Nothing made, nothing changed. -/
theorem Copied.nil (st : Ingestor) (wf : st.tree.WellFormed) : Copied revision st st [] where
  lastId := rfl
  wellFormed := wf
  made i h := absurd h (Nat.not_lt_zero i)
  fresh i h := absurd h (Nat.not_lt_zero i)
  distinct := List.nodup_nil
  kept old oldMem := ⟨old, oldMem, rfl⟩
  onlyMade node nodeMem := .inl ⟨node, nodeMem, rfl⟩
  schedule := by simp [Schedule.recordCopies, NodeId.following]

/-- One copy, then the rest of the copies, make all of them. -/
theorem Copied.cons {st st₁ st' : Ingestor} {entry : String × NodeRecord}
    {rest : List (String × NodeRecord)} (wf : st.tree.WellFormed)
    {created : LiveTree × LiveNode}
    (creating : st.tree.create (copyNode revision (NodeId.next st.lastId) entry) = .ok created)
    (step : st₁ = { st with lastId := NodeId.next st.lastId, tree := created.1,
                            schedule := st.schedule.recordCopies [NodeId.next st.lastId] })
    (copied : Copied revision st₁ st' rest) : Copied revision st st' (entry :: rest) := by
  subst step
  obtain ⟨parent, name, parentMem, -, -, freshId, -, rfl⟩ := wf.create_eq_withCreated creating
  -- The nodes after the first copy: the new one, and the old ones with their records.
  have first : ∀ node ∈ (st.tree.withCreated (copyNode revision (NodeId.next st.lastId) entry)
      parent name).nodes, node = createdNode (copyNode revision (NodeId.next st.lastId) entry)
        parent.id name ∨ ∃ old ∈ st.tree.nodes, node.toRecord = old.toRecord := by
    intro node mem
    rcases mem_withCreated.1 mem with isNew | ⟨old, oldMem, rfl⟩
    · exact .inl isNew
    · exact .inr ⟨old, oldMem, rfl⟩
  have oldKept : ∀ old ∈ st.tree.nodes, ∃ node ∈ (st.tree.withCreated
      (copyNode revision (NodeId.next st.lastId) entry) parent name).nodes,
        node.toRecord = old.toRecord :=
    fun old oldMem => ⟨_, mem_withCreated.2 (.inr ⟨old, oldMem, rfl⟩), rfl⟩
  have shift : ∀ i, NodeId.next^[i + 1] (NodeId.next st.lastId) = NodeId.next^[i + 2] st.lastId :=
    fun i => (Function.iterate_succ_apply NodeId.next (i + 1) st.lastId).symm
  refine ⟨?_, copied.wellFormed, ?_, ?_, ?_, ?_, ?_, ?_⟩
  · rw [copied.lastId]
    exact (Function.iterate_succ_apply NodeId.next rest.length st.lastId).symm
  · intro i h
    cases i with
    | zero =>
      -- The first copy's node is kept by the rest, with its record.
      obtain ⟨node, nodeMem, sameRecord⟩ :=
        copied.kept _ (mem_withCreated.2 (.inl rfl))
      have fields := congrArg (fun record : NodeRecord =>
        (record.id, record.revMin, record.path, record.kind, record.predecessor)) sameRecord
      simp only [LiveNode.toRecord, createdNode, copyNode, Prod.mk.injEq] at fields
      obtain ⟨sameId, sameRevMin, samePath, sameKind, samePredecessor⟩ := fields
      exact ⟨node, nodeMem, sameId, sameRevMin, samePath, sameKind, samePredecessor⟩
    | succ i =>
      obtain ⟨node, nodeMem, sameId, rest⟩ := copied.made i (by simpa using h)
      exact ⟨node, nodeMem, sameId.trans (shift i), rest⟩
  · intro i h old oldMem
    cases i with
    | zero => exact freshId old oldMem
    | succ i =>
      obtain ⟨node, nodeMem, sameRecord⟩ := oldKept old oldMem
      have sameId : node.id = old.id := congrArg NodeRecord.id sameRecord
      rw [← shift i, ← sameId]
      exact copied.fresh i (by simpa using h) node nodeMem
  · -- The first id is not one the rest hands out: the first node is there when they are.
    rw [List.length_cons, NodeId.following_succ]
    refine List.nodup_cons.2 ⟨fun listed => ?_, copied.distinct⟩
    obtain ⟨i, h, same⟩ := List.mem_map.1 listed
    exact copied.fresh i (List.mem_range.1 h) _ (mem_withCreated.2 (.inl rfl)) same.symm
  · intro old oldMem
    obtain ⟨node, nodeMem, sameRecord⟩ := oldKept old oldMem
    obtain ⟨last, lastMem, lastRecord⟩ := copied.kept node nodeMem
    exact ⟨last, lastMem, lastRecord.trans sameRecord⟩
  · intro node nodeMem
    rcases copied.onlyMade node nodeMem with ⟨old, oldMem, sameRecord⟩ | ⟨i, h, sameId⟩
    · rcases first old oldMem with rfl | ⟨older, olderMem, olderRecord⟩
      · exact .inr ⟨0, by simp, by
          simpa [LiveNode.toRecord, createdNode, copyNode] using congrArg NodeRecord.id sameRecord⟩
      · exact .inl ⟨older, olderMem, sameRecord.trans olderRecord⟩
    · exact .inr ⟨i + 1, by simpa using h, sameId.trans (shift i)⟩
  · rw [copied.schedule, Schedule.recordCopies_append, List.length_cons, NodeId.following_succ]
    rfl

/-- Making a list of copies one after the other, from a well-formed tree. -/
theorem copied_of_run : ∀ (copies : List (String × NodeRecord)) (st st' : Ingestor),
    st.tree.WellFormed → st.run (copies.forM (copyOne revision)) = (st', .ok ()) →
      Copied revision st st' copies
  | [], st, st', wf, ran => by
    simp only [List.forM_eq_forM, List.forM_nil, run_pure, Prod.mk.injEq] at ran
    obtain ⟨rfl, -⟩ := ran
    exact Copied.nil st wf
  | entry :: rest, st, st', wf, ran => by
    simp only [List.forM_eq_forM, List.forM_cons] at ran
    obtain ⟨st₁, u, first, restRan⟩ := run_bind_eq_ok.1 ran
    obtain ⟨created, creating, step⟩ := run_copyOne first
    have wf₁ : st₁.tree.WellFormed := by
      rw [step]
      exact wf.create creating
    exact Copied.cons wf creating step (copied_of_run rest st₁ st' wf₁ restRan)

/-! ## A copy with enough fuel reads everything below its source -/


variable {engine : Engine} {lawful : engine.Lawful} {t : Tables} {txOpen : Bool}

open Classical in
/-- With more fuel than there are rows below the source, a copy reads every row below it, when
only directories have rows below them. -/
theorem mem_copied_of_below (holds : store.Holds lawful t txOpen)
    (forest : Forest (t.nodes.filter (·.covers copyRevision)))
    (dirs : ∀ x ∈ t.nodes.filter (·.covers copyRevision), ∀ y ∈ t.nodes.filter (·.covers copyRevision),
      x.parent = y.id → y.kind = .dir) :
    ∀ fuel source, ((t.nodes.filter (·.covers copyRevision)).filter
        fun x => decide (Below (t.nodes.filter (·.covers copyRevision)) source x)).length < fuel →
      ∀ x, Below (t.nodes.filter (·.covers copyRevision)) source x →
        x ∈ copied store copyRevision fuel source
  | 0, _, few, _, _ => absurd few (Nat.not_lt_zero _)
  | fuel + 1, source, few, x, below => by
    obtain ⟨children, listed, perm, -⟩ := holds.children source copyRevision
    -- The children the store lists are the rows under the source.
    have listedIff : ∀ c, c ∈ children ↔
        c ∈ t.nodes.filter (·.covers copyRevision) ∧ c.parent = source := by
      intro c
      rw [perm.mem_iff, List.mem_filter, List.mem_filter]
      simp only [Bool.and_eq_true, beq_iff_eq]
      tauto
    rw [copied, listed]
    rcases below.cases_top with isChild | ⟨c, cMem, cParent, belowC⟩
    · exact List.mem_flatMap.2 ⟨x, (listedIff x).2 ⟨below.mem, isChild⟩, List.mem_cons_self⟩
    · -- The child above `x` is a directory with fewer rows below it than the source.
      obtain ⟨d, dMem, dParent⟩ := belowC.exists_child
      have isDir : c.kind = .dir := dirs d dMem c cMem dParent
      have fewer : ((t.nodes.filter (·.covers copyRevision)).filter
          fun y => decide (Below (t.nodes.filter (·.covers copyRevision)) c.id y)).length <
          ((t.nodes.filter (·.covers copyRevision)).filter
          fun y => decide (Below (t.nodes.filter (·.covers copyRevision)) source y)).length := by
        have sub := List.monotone_filter_right (t.nodes.filter (·.covers copyRevision))
          (p := fun y => decide (Below (t.nodes.filter (·.covers copyRevision)) c.id y))
          (q := fun y => decide (Below (t.nodes.filter (·.covers copyRevision)) source y))
          fun y belowY => by simpa using (of_decide_eq_true belowY).of_child cMem cParent
        refine lt_of_le_of_ne sub.length_le fun same => ?_
        have cIn : c ∈ (t.nodes.filter (·.covers copyRevision)).filter
            fun y => decide (Below (t.nodes.filter (·.covers copyRevision)) source y) :=
          List.mem_filter.2 ⟨cMem, by simpa using Below.child cMem cParent⟩
        rw [← sub.eq_of_length same] at cIn
        exact forest.not_below_self cMem (by simpa using (List.mem_filter.1 cIn).2)
      refine List.mem_flatMap.2 ⟨c, (listedIff c).2 ⟨cMem, cParent⟩, List.mem_cons_of_mem _ ?_⟩
      rw [if_pos (by simp [isDir, NodeKind.isDir])]
      exact mem_copied_of_below holds forest dirs fuel c.id (by omega) x belowC

/-! ## Where each copy goes -/

/-- Below a path other than the root, a child's path is the path, a slash and the name. -/
theorem toList_join {parent : String} (notRoot : parent ≠ Path.root) (name : String) :
    (Path.join parent name).toList = parent.toList ++ '/' :: name.toList := by
  simp [Path.join, notRoot]

/-- A path longer than the root's is not the root. -/
theorem ne_root_of_length {path : String} (long : 1 < path.toList.length) : path ≠ Path.root := by
  rintro rfl
  simp [Path.root] at long

/-- Every copy goes to a path below the target, longer than it. -/
theorem copyTrace_within :
    ∀ fuel (target : String) source, 0 < target.toList.length → target ≠ Path.root →
      ∀ entry ∈ copyTrace store copyRevision fuel target source,
        Path.Within target entry.1 ∧ target.toList.length < entry.1.toList.length
  | 0, _, _, _, _, _, mem => nomatch mem
  | fuel + 1, target, source, nonempty, notRoot, entry, mem => by
    rw [copyTrace] at mem
    obtain ⟨child, -, near⟩ := List.mem_flatMap.1 mem
    have longer : target.toList.length < (Path.join target child.name).toList.length := by
      rw [toList_join notRoot]
      simp
    have childWithin : Path.Within target (Path.join target child.name) := Path.within_join _
    rcases List.mem_cons.1 near with rfl | deeper
    · exact ⟨childWithin, longer⟩
    · split at deeper
      · obtain ⟨within, long⟩ := copyTrace_within fuel _ child.id (by omega)
          (ne_root_of_length (by omega)) entry deeper
        exact ⟨childWithin.trans within, by omega⟩
      · exact absurd deeper List.not_mem_nil

/-- Each copy goes under the target, when its row is a child of the source, or under the copy of
the row's parent, a directory. -/
theorem copyTrace_parent (holds : store.Holds lawful t txOpen) (fuel : Nat) :
    ∀ target source, ∀ entry ∈ copyTrace store copyRevision fuel target source,
      (entry.2.parent = source ∧ entry.1 = Path.join target entry.2.name) ∨
        ∃ above ∈ copyTrace store copyRevision fuel target source, above.2.id = entry.2.parent ∧
          above.2.kind = .dir ∧ entry.1 = Path.join above.1 entry.2.name := by
  -- On the fuel: a copy is a child's own, or one of the copies below a child directory.
  induction fuel with
  | zero =>
    intro _ _ entry mem
    simp [copyTrace] at mem
  | succ fuel ih =>
    intro target source entry mem
    obtain ⟨children, listed, perm, -⟩ := holds.children source copyRevision
    rw [copyTrace, listed] at mem
    obtain ⟨child, childMem, near⟩ := List.mem_flatMap.1 mem
    have childParent : child.parent = source := by
      obtain ⟨-, checks⟩ := List.mem_filter.1 (perm.subset childMem)
      simp only [Bool.and_eq_true, beq_iff_eq] at checks
      exact checks.1
    -- The copies below a child are in the trace, right after the child's own.
    have inTrace : ∀ other ∈ ((Path.join target child.name, child) ::
        if child.kind.isDir then
          copyTrace store copyRevision fuel (Path.join target child.name) child.id
        else []), other ∈ copyTrace store copyRevision (fuel + 1) target source := by
      intro other otherMem
      rw [copyTrace, listed]
      exact List.mem_flatMap.2 ⟨child, childMem, otherMem⟩
    rcases List.mem_cons.1 near with rfl | deeper
    · exact .inl ⟨childParent, rfl⟩
    · split at deeper
      · rename_i isDir
        rcases ih _ child.id entry deeper with
          ⟨below, atPath⟩ | ⟨above, aboveMem, aboveId, aboveDir, atPath⟩
        · refine .inr ⟨(Path.join target child.name, child), inTrace _ List.mem_cons_self,
            below.symm, ?_, atPath⟩
          simpa [NodeKind.isDir] using isDir
        · exact .inr ⟨above, inTrace _ (List.mem_cons_of_mem _ (by simpa [isDir] using aboveMem)),
            aboveId, aboveDir, atPath⟩
      · exact absurd deeper List.not_mem_nil

end Ingestor

/-! ## What the rows of a revision are like -/

namespace LiveTree

/-- The children of a node of a well-formed tree are in order of name. -/
theorem WellFormed.childrenOf_sorted {tree : LiveTree} (wf : tree.WellFormed) (id : NodeId) :
    Children.Sorted (tree.childrenOf id) := by
  unfold childrenOf
  cases found : tree.node? id with
  | none => exact List.Pairwise.nil
  | some node => exact wf.childrenSorted node (wf.node?_eq_some_iff.1 found).1

end LiveTree

namespace Tables

open History

variable {t : Tables} {history : History} {r : Revnum}

/-- A row that holds a revision is the record of a node of the tree as of it. -/
theorem Records.node_of_row (records : t.Records history) (bounded : r ≤ Revnum.head)
    {row : NodeRecord} (mem : row ∈ t.nodes.filter (·.covers r)) :
    ∃ node ∈ (treeAt history r).nodes, node.id ≠ NodeId.root ∧ node.toRecord = row.live := by
  obtain ⟨rowMem, rowHolds⟩ := List.mem_filter.1 mem
  exact LiveTree.mem_records.1 (records.live_mem rowMem bounded rowHolds)

/-- Of the rows that hold a revision, those with rows under them are directories. -/
theorem Records.parent_isDir (records : t.Records history) (valid : history.Valid)
    (bounded : r ≤ Revnum.head) {x y : NodeRecord} (xMem : x ∈ t.nodes.filter (·.covers r))
    (yMem : y ∈ t.nodes.filter (·.covers r)) (parent : x.parent = y.id) : y.kind = .dir := by
  have wf := valid.treeAt_wellFormed r
  obtain ⟨nx, nxMem, nxRoot, nxRecord⟩ := records.node_of_row bounded xMem
  obtain ⟨ny, nyMem, -, nyRecord⟩ := records.node_of_row bounded yMem
  obtain ⟨p, pMem, pId, pDir, -⟩ := wf.parentMem nx nxMem nxRoot
  -- The tree's parent of `x`'s node is `y`'s node.
  have same : p = ny := by
    refine wf.eq_of_id_eq pMem nyMem ?_
    rw [pId]
    calc nx.parent = x.parent := congrArg NodeRecord.parent nxRecord
      _ = y.id := parent
      _ = ny.id := (congrArg NodeRecord.id nyRecord).symm
  calc y.kind = ny.kind := (congrArg NodeRecord.kind nyRecord).symm
    _ = .dir := same ▸ pDir

/-- The name of a row that holds a revision has no slash. -/
theorem Records.not_slash_name (records : t.Records history) (valid : history.Valid)
    (bounded : r ≤ Revnum.head) {x : NodeRecord} (xMem : x ∈ t.nodes.filter (·.covers r)) :
    '/' ∉ x.name.toList := by
  have wf := valid.treeAt_wellFormed r
  obtain ⟨nx, nxMem, nxRoot, nxRecord⟩ := records.node_of_row bounded xMem
  obtain ⟨p, -, -, -, split⟩ := wf.parentMem nx nxMem nxRoot
  have sameName : nx.name = x.name := congrArg NodeRecord.name nxRecord
  rw [← sameName]
  exact Path.not_slash_of_split split

end Tables

/-! ## The copy of a subtree -/

/-- The copy of each id: the target for the source, and for the `i`-th row of `order`, the `i + 1`-th
id after `last`. -/
def copyIds (order : List NodeRecord) (source target last : NodeId) (id : NodeId) : NodeId :=
  if id = source then target else NodeId.next^[(order.map (·.id)).idxOf id + 1] last

theorem copyIds_source (order : List NodeRecord) (source target last : NodeId) :
    copyIds order source target last source = target := by
  simp [copyIds]

theorem copyIds_getElem {order : List NodeRecord} {source : NodeId}
    (nodup : (order.map (·.id)).Nodup) (notSource : ∀ x ∈ order, x.id ≠ source)
    (target last : NodeId) (i : Nat) (h : i < order.length) :
    copyIds order source target last order[i].id = NodeId.next^[i + 1] last := by
  have index : (order.map (·.id)).idxOf order[i].id = i := by
    have atIndex := List.get_idxOf nodup ⟨i, by simpa using h⟩
    simpa using atIndex
  simp [copyIds, notSource order[i] (List.getElem_mem h), index]

/-- The copy of the source or of a row is the target, or the `i + 1`-th id after `last` for some
place `i` of the rows. -/
theorem copyIds_cases {order : List NodeRecord} {source id : NodeId} (target last : NodeId)
    (inDomain : id = source ∨ ∃ x ∈ order, x.id = id) :
    copyIds order source target last id = target ∨
      ∃ i < order.length, copyIds order source target last id = NodeId.next^[i + 1] last := by
  by_cases isSource : id = source
  · exact .inl (by rw [isSource, copyIds_source])
  · obtain ⟨x, xMem, rfl⟩ := inDomain.resolve_left isSource
    have listed : x.id ∈ order.map (·.id) := List.mem_map_of_mem xMem
    refine .inr ⟨(order.map (·.id)).idxOf x.id, ?_, by simp [copyIds, isSource]⟩
    simpa using List.idxOf_lt_length_of_mem listed

/-- `tree` holds below `target` a copy of what the store held under `source` at `copyRevision`:
for each row of `order`, the node `copyOf` gives, with its name and kind, inheriting from it, under
the copy of its parent, opened at `revision`, the children of each copy those of its row in order,
and distinct ids having distinct copies. -/
structure Mirrors (store : Store) (copyRevision revision : Revnum) (tree : LiveTree) (target : String)
    (source : NodeId) (order : List NodeRecord) (copyOf : NodeId → NodeId) : Prop where
  located : ∀ id, (id = source ∨ ∃ x ∈ order, x.id = id) →
    ∃ node ∈ tree.nodes, node.id = copyOf id ∧ Path.Within target node.path
  copies : ∀ x ∈ order, ∃ node ∈ tree.nodes, node.id = copyOf x.id ∧ node.name = x.name ∧
    node.kind = x.kind ∧ node.predecessor = some { id := x.id, type := .inherit } ∧
    node.parent = copyOf x.parent ∧ node.revMin = revision
  children : ∀ id, (id = source ∨ ∃ x ∈ order, x.id = id) → ∃ rows,
    store.children id copyRevision = .ok rows ∧
      tree.childrenOf (copyOf id) = rows.map fun row => (row.name, copyOf row.id)
  distinct : ∀ a b, (a = source ∨ ∃ x ∈ order, x.id = a) → (b = source ∨ ∃ x ∈ order, x.id = b) →
    copyOf a = copyOf b → a = b

/-! ## A deep copy mirrors its source -/

namespace Ingestor

open LiveTree

section Mirror

variable {engine : Engine} {lawful : engine.Lawful} {store : Store} {t : Tables} {txOpen : Bool}
  {copyRevision revision : Revnum} {fuel : Nat} {target : String} {source : NodeId}
  {st st' : Ingestor} {tn : LiveNode}
  (holds : store.Holds lawful t txOpen) (forest : Forest (t.nodes.filter (·.covers copyRevision)))
  (wf : st.tree.WellFormed) (tnMem : tn ∈ st.tree.nodes)
  (copying : Copied revision st st' (copyTrace store copyRevision fuel target source))

include holds in
/-- The rows a copy reads hold the copy's revision and lie below its source. -/
theorem below_of_mem_order {x : NodeRecord} (mem : x ∈ copied store copyRevision fuel source) :
    x ∈ t.nodes.filter (·.covers copyRevision) ∧
      Below (t.nodes.filter (·.covers copyRevision)) source x :=
  have below := below_of_mem_copied holds fuel source mem
  ⟨below.mem, below⟩

include holds forest in
/-- The rows a copy reads have distinct ids, none the source's. -/
theorem order_ids : ((copied store copyRevision fuel source).map (·.id)).Nodup ∧
    ∀ x ∈ copied store copyRevision fuel source, x.id ≠ source := by
  refine ⟨(nodup_copied holds forest fuel source).map_on fun x xMem y yMem same =>
    forest.eq_of_id (below_of_mem_order holds xMem).1 (below_of_mem_order holds yMem).1 same, ?_⟩
  intro x xMem isSource
  have below := (below_of_mem_order holds xMem).2
  rw [← isSource] at below
  exact forest.not_below_self (below_of_mem_order holds xMem).1 below

/-- The `i`-th copy is of the `i`-th row the copy reads. -/
theorem copyTrace_getElem_snd {i : Nat} (h : i < (copyTrace store copyRevision fuel target source).length)
    (h₁ : i < (copied store copyRevision fuel source).length) :
    (copyTrace store copyRevision fuel target source)[i].2 =
      (copied store copyRevision fuel source)[i] := by
  simp only [← map_copyTrace fuel target source, List.getElem_map]

include holds forest wf tnMem copying in
/-- The node made for each entry: the copy of the entry's row, with its name and kind, under the
copy of the row's parent. -/
theorem copied_entry (tnPath : tn.path = target) (notRoot : target ≠ Path.root)
    (nonempty : target ≠ "")
    (names : ∀ x ∈ t.nodes.filter (·.covers copyRevision), '/' ∉ x.name.toList)
    (i : Nat) (h : i < (copyTrace store copyRevision fuel target source).length) :
    ∃ node ∈ st'.tree.nodes,
      node.id = copyIds (copied store copyRevision fuel source) source tn.id st.lastId
        (copyTrace store copyRevision fuel target source)[i].2.id ∧
      node.path = (copyTrace store copyRevision fuel target source)[i].1 ∧
      node.name = (copyTrace store copyRevision fuel target source)[i].2.name ∧
      node.kind = (copyTrace store copyRevision fuel target source)[i].2.kind ∧
      node.predecessor =
        some { id := (copyTrace store copyRevision fuel target source)[i].2.id, type := .inherit } ∧
      node.parent = copyIds (copied store copyRevision fuel source) source tn.id st.lastId
        (copyTrace store copyRevision fuel target source)[i].2.parent ∧
      node.revMin = revision := by
  obtain ⟨idsNodup, notSource⟩ := order_ids holds forest
  have lengths : (copyTrace store copyRevision fuel target source).length =
      (copied store copyRevision fuel source).length := by
    rw [← map_copyTrace fuel target source, List.length_map]
  -- The node made for the `j`-th entry carries the copy of the `j`-th row's id.
  have made : ∀ j (hj : j < (copyTrace store copyRevision fuel target source).length),
      ∃ node ∈ st'.tree.nodes,
        node.id = copyIds (copied store copyRevision fuel source) source tn.id st.lastId
          (copyTrace store copyRevision fuel target source)[j].2.id ∧
        node.revMin = revision ∧ node.path = (copyTrace store copyRevision fuel target source)[j].1 ∧
        node.kind = (copyTrace store copyRevision fuel target source)[j].2.kind ∧
        node.predecessor =
          some { id := (copyTrace store copyRevision fuel target source)[j].2.id, type := .inherit } := by
    intro j hj
    obtain ⟨node, nodeMem, nodeId, rest⟩ := copying.made j hj
    refine ⟨node, nodeMem, ?_, rest⟩
    rw [nodeId, copyTrace_getElem_snd hj (lengths ▸ hj), copyIds_getElem idsNodup notSource _ _ j (lengths ▸ hj)]
  obtain ⟨node, nodeMem, nodeId₀, revMin, nodePath, nodeKind, nodePred⟩ := copying.made i h
  have nodeId : node.id = copyIds (copied store copyRevision fuel source) source tn.id st.lastId
      (copyTrace store copyRevision fuel target source)[i].2.id := by
    rw [nodeId₀, copyTrace_getElem_snd h (lengths ▸ h), copyIds_getElem idsNodup notSource _ _ i (lengths ▸ h)]
  -- The root was there before, so the new node is not the root.
  have notRootId : node.id ≠ NodeId.root := by
    obtain ⟨children, rootMem⟩ := wf.rootMem
    intro isRoot
    refine copying.fresh i h _ rootMem ?_
    show NodeId.root = _
    rw [← isRoot, nodeId₀]
  obtain ⟨parent, parentMem, parentId, -, split⟩ := copying.wellFormed.parentMem node nodeMem notRootId
  have noSlash : '/' ∉ (copyTrace store copyRevision fuel target source)[i].2.name.toList := by
    rw [copyTrace_getElem_snd h (lengths ▸ h)]
    exact names _ (below_of_mem_order holds (List.getElem_mem _)).1
  rcases copyTrace_parent holds fuel target source _ (List.getElem_mem h) with
    ⟨isTop, atPath⟩ | ⟨above, aboveMem, aboveId, -, atPath⟩
  · -- Under the target: the parent is the target node.
    rw [nodePath, atPath, Path.split_join notRoot nonempty noSlash] at split
    obtain ⟨parentPath, sameName⟩ := Prod.mk.inj (Except.ok.inj split)
    obtain ⟨tn', tnMem', tnRecord⟩ := copying.kept tn tnMem
    have tnPath' : tn'.path = target := (congrArg NodeRecord.path tnRecord).trans tnPath
    have sameParent := copying.wellFormed.eq_of_path_eq parentMem tnMem' (parentPath.symm.trans tnPath'.symm)
    refine ⟨node, nodeMem, nodeId, nodePath, sameName.symm, nodeKind, nodePred, ?_, revMin⟩
    rw [← parentId, sameParent, isTop, copyIds_source]
    exact congrArg NodeRecord.id tnRecord
  · -- Under the copy of another entry: the parent is that entry's node.
    obtain ⟨j, hj, rfl⟩ := List.mem_iff_getElem.1 aboveMem
    obtain ⟨-, longer⟩ := copyTrace_within fuel target source
      (List.length_pos_iff.2 fun empty => nonempty (String.toList_inj.1 (by simpa using empty)))
      notRoot _ aboveMem
    have positive : 0 < target.toList.length :=
      List.length_pos_iff.2 fun empty => nonempty (String.toList_inj.1 (by simpa using empty))
    have aboveNotRoot : (copyTrace store copyRevision fuel target source)[j].1 ≠ Path.root :=
      ne_root_of_length (by omega)
    have aboveNonempty : (copyTrace store copyRevision fuel target source)[j].1 ≠ "" := by
      intro empty
      rw [empty] at longer
      simp at longer
    rw [nodePath, atPath, Path.split_join aboveNotRoot aboveNonempty noSlash] at split
    obtain ⟨parentPath, sameName⟩ := Prod.mk.inj (Except.ok.inj split)
    obtain ⟨aboveNode, aboveNodeMem, aboveNodeId, -, aboveNodePath, -⟩ := made j hj
    have sameParent := copying.wellFormed.eq_of_path_eq parentMem aboveNodeMem
      (parentPath.symm.trans aboveNodePath.symm)
    refine ⟨node, nodeMem, nodeId, nodePath, sameName.symm, nodeKind, nodePred, ?_, revMin⟩
    rw [← parentId, sameParent, aboveNodeId, aboveId]

include wf copying in
/-- The ids a copy hands out are not the root's, which was there before. -/
theorem copy_ne_root {i : Nat} (h : i < (copyTrace store copyRevision fuel target source).length) :
    NodeId.next^[i + 1] st.lastId ≠ NodeId.root := by
  obtain ⟨children, rootMem⟩ := wf.rootMem
  exact (copying.fresh i h _ rootMem).symm

include holds forest tnMem copying in
/-- Distinct ids among the source and the rows a copy reads have distinct copies. -/
theorem copyIds_distinct {a b : NodeId}
    (aIn : a = source ∨ ∃ x ∈ copied store copyRevision fuel source, x.id = a)
    (bIn : b = source ∨ ∃ x ∈ copied store copyRevision fuel source, x.id = b)
    (same : copyIds (copied store copyRevision fuel source) source tn.id st.lastId a =
      copyIds (copied store copyRevision fuel source) source tn.id st.lastId b) : a = b := by
  obtain ⟨idsNodup, notSource⟩ := order_ids holds forest
  have lengths : (copyTrace store copyRevision fuel target source).length =
      (copied store copyRevision fuel source).length := by
    rw [← map_copyTrace fuel target source, List.length_map]
  -- The copy of a row is the id handed out at the row's place; the source's is the target's.
  have ofRow : ∀ x ∈ copied store copyRevision fuel source, ∃ i, ∃ h : i < (copyTrace store
      copyRevision fuel target source).length, x = (copied store copyRevision fuel source)[i] ∧
      copyIds (copied store copyRevision fuel source) source tn.id st.lastId x.id =
        NodeId.next^[i + 1] st.lastId := by
    intro x xMem
    obtain ⟨i, hi, rfl⟩ := List.mem_iff_getElem.1 xMem
    exact ⟨i, lengths ▸ hi, rfl, copyIds_getElem idsNodup notSource _ _ i hi⟩
  rcases aIn with rfl | ⟨x, xMem, rfl⟩ <;> rcases bIn with rfl | ⟨y, yMem, rfl⟩
  · rfl
  · obtain ⟨j, hj, -, yCopy⟩ := ofRow y yMem
    rw [copyIds_source, yCopy] at same
    exact absurd same (copying.fresh j hj tn tnMem)
  · obtain ⟨i, hi, -, xCopy⟩ := ofRow x xMem
    rw [copyIds_source, xCopy] at same
    exact absurd same.symm (copying.fresh i hi tn tnMem)
  · obtain ⟨i, hi, rfl, xCopy⟩ := ofRow x xMem
    obtain ⟨j, hj, rfl, yCopy⟩ := ofRow y yMem
    rw [xCopy, yCopy] at same
    -- The ids handed out are distinct, so the places are the same.
    have places : i = j := by
      have hiFollowing : i < (NodeId.following st.lastId
          (copyTrace store copyRevision fuel target source).length).length := by
        simpa [NodeId.following] using hi
      have hjFollowing : j < (NodeId.following st.lastId
          (copyTrace store copyRevision fuel target source).length).length := by
        simpa [NodeId.following] using hj
      have atI : (NodeId.following st.lastId
          (copyTrace store copyRevision fuel target source).length)[i] =
          NodeId.next^[i + 1] st.lastId := by
        simp [NodeId.following]
      have atJ : (NodeId.following st.lastId
          (copyTrace store copyRevision fuel target source).length)[j] =
          NodeId.next^[j + 1] st.lastId := by
        simp [NodeId.following]
      exact (copying.distinct.getElem_inj_iff).1 (atI.trans (same.trans atJ.symm))
    subst places
    rfl

include holds forest wf tnMem copying in
/-- A deep copy that read everything below its source, into a childless target node, mirrors the
source below the target. -/
theorem copying_mirrors (tnPath : tn.path = target) (tnLeaf : tn.children = [])
    (notRoot : target ≠ Path.root) (nonempty : target ≠ "")
    (names : ∀ x ∈ t.nodes.filter (·.covers copyRevision), '/' ∉ x.name.toList)
    (complete : ∀ x, Below (t.nodes.filter (·.covers copyRevision)) source x →
      x ∈ copied store copyRevision fuel source)
    (sorted : ∀ id, ∃ rows, store.children id copyRevision = .ok rows ∧
      Children.Sorted (rows.map fun row => (row.name, row.id))) :
    Mirrors store copyRevision revision st'.tree target source (copied store copyRevision fuel source)
      (copyIds (copied store copyRevision fuel source) source tn.id st.lastId) := by
  obtain ⟨idsNodup, notSource⟩ := order_ids holds forest
  have lengths : (copyTrace store copyRevision fuel target source).length =
      (copied store copyRevision fuel source).length := by
    rw [← map_copyTrace fuel target source, List.length_map]
  have wf' := copying.wellFormed
  obtain ⟨tn', tnMem', tnRecord⟩ := copying.kept tn tnMem
  have tnId' : tn'.id = tn.id := congrArg NodeRecord.id tnRecord
  have tnPath' : tn'.path = tn.path := congrArg NodeRecord.path tnRecord
  -- The node made for each row the copy reads, at that row's place.
  have entry : ∀ i (h : i < (copied store copyRevision fuel source).length),
      ∃ node ∈ st'.tree.nodes,
        node.id = copyIds (copied store copyRevision fuel source) source tn.id st.lastId
          (copied store copyRevision fuel source)[i].id ∧
        node.path = (copyTrace store copyRevision fuel target source)[i].1 ∧
        node.name = (copied store copyRevision fuel source)[i].name ∧
        node.kind = (copied store copyRevision fuel source)[i].kind ∧
        node.predecessor =
          some { id := (copied store copyRevision fuel source)[i].id, type := .inherit } ∧
        node.parent = copyIds (copied store copyRevision fuel source) source tn.id st.lastId
          (copied store copyRevision fuel source)[i].parent ∧
        node.revMin = revision := by
    intro i h
    have h' : i < (copyTrace store copyRevision fuel target source).length := lengths ▸ h
    have made := copied_entry holds forest wf tnMem copying tnPath notRoot nonempty names i h'
    rw [copyTrace_getElem_snd h' h] at made
    exact made
  -- The copy of each row is the id handed out at its place.
  have copyAt : ∀ i (h : i < (copied store copyRevision fuel source).length),
      copyIds (copied store copyRevision fuel source) source tn.id st.lastId
        (copied store copyRevision fuel source)[i].id = NodeId.next^[i + 1] st.lastId :=
    copyIds_getElem idsNodup notSource _ _
  refine ⟨?located, ?copies, ?children, fun a b aIn bIn same =>
    copyIds_distinct holds forest tnMem copying aIn bIn same⟩
  case located =>
    rintro id (rfl | ⟨x, xMem, rfl⟩)
    · exact ⟨tn', tnMem', by rw [tnId', copyIds_source], by
        rw [tnPath', tnPath]; exact Path.Within.refl target⟩
    · obtain ⟨i, hi, rfl⟩ := List.mem_iff_getElem.1 xMem
      obtain ⟨node, nodeMem, nodeId, nodePath, -⟩ := entry i hi
      have within := (copyTrace_within fuel target source
        (List.length_pos_iff.2 fun empty => nonempty (String.toList_inj.1 (by simpa using empty)))
        notRoot _ (List.getElem_mem (lengths ▸ hi))).1
      exact ⟨node, nodeMem, nodeId, nodePath ▸ within⟩
  case copies =>
    intro x xMem
    obtain ⟨i, hi, rfl⟩ := List.mem_iff_getElem.1 xMem
    obtain ⟨node, nodeMem, nodeId, -, rest⟩ := entry i hi
    exact ⟨node, nodeMem, nodeId, rest⟩
  case children =>
    intro id idIn
    obtain ⟨rows, read, sortedRows⟩ := sorted id
    obtain ⟨listed, read', perm, -⟩ := holds.children id copyRevision
    rw [read] at read'
    cases Except.ok.inj read'
    -- The rows under `id` are below the source, so the copy read them.
    have rowIff : ∀ row, row ∈ rows ↔
        row ∈ t.nodes.filter (·.covers copyRevision) ∧ row.parent = id := by
      intro row
      rw [perm.mem_iff, List.mem_filter, List.mem_filter]
      simp only [Bool.and_eq_true, beq_iff_eq]
      tauto
    have rowRead : ∀ row ∈ rows, row ∈ copied store copyRevision fuel source := by
      intro row rowMem
      obtain ⟨covering, parent⟩ := (rowIff row).1 rowMem
      refine complete row ?_
      rcases idIn with rfl | ⟨x, xMem, rfl⟩
      · exact .child covering parent
      · exact .under (below_of_mem_order holds xMem).2 covering parent
    -- The node of the copy of `id`, and its children.
    have copyNode : ∃ node ∈ st'.tree.nodes,
        node.id = copyIds (copied store copyRevision fuel source) source tn.id st.lastId id := by
      rcases idIn with rfl | ⟨x, xMem, rfl⟩
      · exact ⟨tn', tnMem', by rw [tnId', copyIds_source]⟩
      · obtain ⟨i, hi, rfl⟩ := List.mem_iff_getElem.1 xMem
        obtain ⟨node, nodeMem, nodeId, -⟩ := entry i hi
        exact ⟨node, nodeMem, nodeId⟩
    obtain ⟨node, nodeMem, nodeId⟩ := copyNode
    refine ⟨rows, read, ?_⟩
    unfold childrenOf
    rw [wf'.node?_eq_some_iff.2 ⟨nodeMem, nodeId⟩]
    refine Children.Sorted.eq_of_mem_iff (wf'.childrenSorted node nodeMem)
      (by simpa [Children.Sorted, List.pairwise_map] using sortedRows) fun listedEntry => ?_
    rw [Option.map_some, Option.getD_some, wf'.memChildren node nodeMem]
    constructor
    · rintro ⟨child, childMem, childNotRoot, childParent, rfl⟩
      rcases copying.onlyMade child childMem with ⟨old, oldMem, oldRecord⟩ | ⟨i, hi, childId⟩
      · -- No node there before has the copy of `id` as its parent.
        exfalso
        have oldParent : old.parent = node.id :=
          (congrArg NodeRecord.parent oldRecord).symm.trans childParent
        have oldId : child.id = old.id := congrArg NodeRecord.id oldRecord
        have oldNotRoot : old.id ≠ NodeId.root := oldId ▸ childNotRoot
        rcases idIn with rfl | ⟨x, xMem, rfl⟩
        · rw [nodeId, copyIds_source] at oldParent
          have listedOld := (wf.memChildren tn tnMem (old.name, old.id)).2
            ⟨old, oldMem, oldNotRoot, oldParent, rfl⟩
          rw [tnLeaf] at listedOld
          exact List.not_mem_nil listedOld
        · obtain ⟨i, hi, rfl⟩ := List.mem_iff_getElem.1 xMem
          rw [nodeId, copyAt i hi] at oldParent
          obtain ⟨p, pMem, pId, -⟩ := wf.parentMem old oldMem oldNotRoot
          exact copying.fresh i (lengths ▸ hi) p pMem (pId.trans oldParent)
      · -- A node the copy made: the copy of a row under `id`.
        obtain ⟨made, madeMem, madeId, -, madeName, -, -, madeParent, -⟩ :=
          entry i (lengths ▸ hi)
        have same := wf'.eq_of_id_eq childMem madeMem (childId.trans (copyAt i (lengths ▸ hi)).symm |>.trans madeId.symm)
        subst same
        -- The row's parent is the source or a row the copy read, with the same copy as `id`.
        have parentIn : (copied store copyRevision fuel source)[i].parent = source ∨
            ∃ x ∈ copied store copyRevision fuel source,
              x.id = (copied store copyRevision fuel source)[i].parent := by
          rcases copyTrace_parent holds fuel target source _
              (List.getElem_mem (lengths ▸ hi : i < (copyTrace store copyRevision fuel target source).length)) with
            ⟨isTop, -⟩ | ⟨above, aboveMem, aboveId, -⟩
          · exact .inl (by rw [← copyTrace_getElem_snd hi (lengths ▸ hi)]; exact isTop)
          · refine .inr ⟨above.2, ?_, by rw [aboveId, copyTrace_getElem_snd hi (lengths ▸ hi)]⟩
            rw [← map_copyTrace fuel target source]
            exact List.mem_map_of_mem aboveMem
        have rowParent := copyIds_distinct holds forest tnMem copying parentIn idIn
          (madeParent.symm.trans (childParent.trans nodeId))
        refine List.mem_map.2 ⟨(copied store copyRevision fuel source)[i],
          (rowIff _).2 ⟨(below_of_mem_order holds (List.getElem_mem (lengths ▸ hi))).1, rowParent⟩, ?_⟩
        rw [madeName, madeId]
    · intro listed
      obtain ⟨row, rowMem, rfl⟩ := List.mem_map.1 listed
      obtain ⟨i, hi, rfl⟩ := List.mem_iff_getElem.1 (rowRead row rowMem)
      obtain ⟨made, madeMem, madeId, -, madeName, -, -, madeParent, -⟩ := entry i hi
      have parent := ((rowIff _).1 rowMem).2
      refine ⟨made, madeMem, ?_, ?_, by rw [madeName, madeId]⟩
      · rw [madeId, copyAt i hi]
        exact copy_ne_root wf copying (lengths ▸ hi)
      · rw [madeParent, parent, nodeId]

end Mirror

section Recorded

open History

variable {engine : Engine} {lawful : engine.Lawful} {store : Store} {t t₀ : Tables} {txOpen : Bool}
  {history : History} {copyRevision revision : Revnum} {target : String} {source : NodeId}
  {st st' : Ingestor} {tn : LiveNode}

open Classical in
/-- A deep copy out of a store recording a history, into a childless node at the target, reads
every row below its source and mirrors them below the target. -/
theorem deepCopy_mirrors (holds : store.Holds lawful t txOpen) (sameNodes : t.nodes = t₀.nodes)
    (records : t₀.Records history) (valid : history.Valid) (bounded : copyRevision ≤ Revnum.head)
    (wf : st.tree.WellFormed) (tnMem : tn ∈ st.tree.nodes) (tnPath : tn.path = target)
    (tnLeaf : tn.children = []) (notRoot : target ≠ Path.root) (nonempty : target ≠ "")
    (ran : st.run (deepCopy store revision (store.nodeCount + 1) target source copyRevision) =
      (st', .ok ())) :
    Copied revision st st' (copyTrace store copyRevision (store.nodeCount + 1) target source) ∧
      (∀ x, x ∈ copied store copyRevision (store.nodeCount + 1) source ↔
        Below (t.nodes.filter (·.covers copyRevision)) source x) ∧
      Mirrors store copyRevision revision st'.tree target source
        (copied store copyRevision (store.nodeCount + 1) source)
        (copyIds (copied store copyRevision (store.nodeCount + 1) source) source tn.id st.lastId) := by
  have forest : Forest (t.nodes.filter (·.covers copyRevision)) :=
    sameNodes ▸ records.forest valid copyRevision
  have answers : ∀ id, ∃ rows, store.children id copyRevision = .ok rows := by
    intro id
    obtain ⟨rows, read, -⟩ := records.children_of_nodes holds sameNodes valid id bounded
    exact ⟨rows, read⟩
  rw [deepCopy_eq_forM revision answers] at ran
  have copying := copied_of_run _ st st' wf ran
  -- The fuel is more than there are rows at all.
  have enough : ((t.nodes.filter (·.covers copyRevision)).filter
      fun x => decide (Below (t.nodes.filter (·.covers copyRevision)) source x)).length <
      store.nodeCount + 1 := by
    have fewer : ((t.nodes.filter (·.covers copyRevision)).filter
        fun x => decide (Below (t.nodes.filter (·.covers copyRevision)) source x)).length ≤
        t.nodes.length :=
      (List.filter_sublist.trans List.filter_sublist).length_le
    rw [holds.nodeCount]
    omega
  have complete := mem_copied_of_below holds forest
    (fun x xMem y yMem parent =>
      records.parent_isDir valid bounded (sameNodes ▸ xMem) (sameNodes ▸ yMem) parent) _ source enough
  refine ⟨copying, fun x => ⟨fun mem => (below_of_mem_order holds mem).2, complete x⟩,
    copying_mirrors holds forest wf tnMem copying tnPath tnLeaf notRoot nonempty
      (fun x xMem => records.not_slash_name valid bounded (sameNodes ▸ xMem)) complete fun id => ?_⟩
  obtain ⟨rows, read, entries, -⟩ := records.children_of_nodes holds sameNodes valid id bounded
  exact ⟨rows, read, entries ▸ (valid.treeAt_wellFormed copyRevision).childrenOf_sorted id⟩

end Recorded

end Ingestor
end TreeHistory
