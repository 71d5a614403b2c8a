import Mathlib
import TreeHistory.Proofs.Ingest.EventOrder
import TreeHistory.Proofs.Path.Canonical
import TreeHistory.Proofs.Indexer.CopiedSubtree

/-!
# Where the nodes of a revision come from

A revision applies its events in order of path, so a node it leaves at a path was made by the last
event there that adds or replaces a node (`ChangeSet.lastCreatingAt`), or, when there is none, by
the copy of a directory into a path above it. `MadeBy` reads this off a node's path and
predecessor, and `Ingestor.Origins` keeps it for every node made so far against the events applied
so far: each event keeps it (`applyChange_origins`), since the nodes a copy makes are at paths no
event has reached yet, and so does the whole revision (`apply_origins`). A node made in the
revision is also made after its parent (`ParentsFirst`, `apply_parentsFirst`).
-/

namespace TreeHistory

/-- Whether an action makes a node at its path: adding and replacing do. -/
def ChangeAction.creates : ChangeAction → Bool
  | .added => true
  | .replaced => true
  | .modified => false
  | .deleted => false

/-- The last change of the set that adds or replaces a node at `path`, once its own path is
normalized. -/
def ChangeSet.lastCreatingAt (changeSet : ChangeSet) (path : String) : Option Change :=
  (changeSet.changes.filter fun change =>
    change.action.creates && decide ((Path.normalize change.path).toOption = some path)).getLast?

/-- The name a segmented path other than the root ends in is not empty. -/
theorem Path.Segmented.name_ne_empty {path parent name : String} (segmented : Segmented path)
    (split : Path.split path = .ok (parent, name)) : name ≠ "" := by
  rintro rfl
  have notRoot := LiveTree.ne_root_of_split split
  obtain ⟨parent', name', split', joined, -⟩ := segmented.join_split notRoot
  rw [split, Except.ok.injEq, Prod.mk.injEq] at split'
  obtain ⟨rfl, rfl⟩ := split'
  -- Joined with an empty name, the path would end in a slash; its last segment ends it instead.
  obtain ⟨segs, valid, chars⟩ := segmented
  have endsInSlash : path.toList.getLast? = some '/' := by
    rw [← joined]
    unfold join
    split <;> simp
  obtain ⟨init, last, rfl⟩ : ∃ init last, segs = init ++ [last] := by
    cases segs using List.reverseRecOn with
    | nil => exact absurd (String.toList_inj.1 (by rw [chars]; rfl)) notRoot
    | append_singleton init last _ => exact ⟨init, last, rfl⟩
  obtain ⟨nonempty, noSlash⟩ := valid last (by simp)
  have written : path.toList = init.flatMap (fun seg => '/' :: seg) ++ '/' :: last := by
    rw [chars]
    cases init <;> simp [renderChars]
  rw [written, List.getLast?_append_of_ne_nil _ (List.cons_ne_nil _ _),
    List.getLast?_cons, List.getLast?_eq_some_getLast nonempty] at endsInSlash
  simp only [Option.getD_some, Option.some.injEq] at endsInSlash
  exact noSlash (endsInSlash ▸ List.getLast_mem nonempty)

/-- A node with a predecessor is not the root. -/
theorem LiveTree.WellFormed.id_ne_root_of_predecessor {tree : LiveTree} (wf : tree.WellFormed)
    {node : LiveNode} (mem : node ∈ tree.nodes) (inherits : node.predecessor.isSome) :
    node.id ≠ NodeId.root := by
  intro isRoot
  obtain ⟨children, rootMem⟩ := wf.rootMem
  rw [wf.eq_of_id_eq mem rootMem isRoot] at inherits
  simp [LiveNode.root] at inherits

/-- Joining a segment to a segmented path gives a segmented path. -/
theorem Path.Segmented.join {parent name : String} (segmented : Segmented parent)
    (nonempty : name ≠ "") (noSlash : '/' ∉ name.toList) : Segmented (Path.join parent name) := by
  obtain ⟨segs, valid, chars⟩ := segmented
  have nameValid : name.toList ≠ [] ∧ '/' ∉ name.toList :=
    ⟨fun empty => nonempty (String.toList_inj.1 (by simpa using empty)), noSlash⟩
  refine ⟨segs ++ [name.toList], fun seg mem => ?_, ?_⟩
  · rcases List.mem_append.1 mem with old | new
    · exact valid seg old
    · rw [List.mem_singleton.1 new]
      exact nameValid
  · cases segs with
    | nil =>
      have isRoot : parent = root := String.toList_inj.1 (by rw [chars]; rfl)
      simp [Path.join, isRoot, renderChars]
    | cons first others =>
      have notRoot : parent ≠ root := by
        refine Ingestor.ne_root_of_length ?_
        rw [chars]
        have firstNonempty := (valid first List.mem_cons_self).1
        cases first with
        | nil => exact absurd rfl firstNonempty
        | cons c cs => simp [renderChars]
      rw [Path.join, if_neg notRoot]
      simp [chars, renderChars]

namespace Ingestor

/-- A deep copy into a segmented path makes its copies at segmented paths, when the rows it reads
have names that are segments. -/
theorem copyTrace_segmented {store : Store} {copyRevision : Revnum} :
    ∀ fuel (target : String) source, Path.Segmented target →
      (∀ entry ∈ copyTrace store copyRevision fuel target source,
        entry.2.name ≠ "" ∧ '/' ∉ entry.2.name.toList) →
      ∀ entry ∈ copyTrace store copyRevision fuel target source, Path.Segmented entry.1
  | 0, _, _, _, _, _, mem => absurd mem List.not_mem_nil
  | fuel + 1, target, source, segmented, names, entry, mem => by
    rw [copyTrace] at mem names
    obtain ⟨child, childMem, near⟩ := List.mem_flatMap.1 mem
    have childNamed := names _ (List.mem_flatMap.2 ⟨child, childMem, List.mem_cons_self⟩)
    have childSegmented : Path.Segmented (Path.join target child.name) :=
      segmented.join childNamed.1 childNamed.2
    rcases List.mem_cons.1 near with rfl | deeper
    · exact childSegmented
    · split at deeper
      · refine copyTrace_segmented fuel _ child.id childSegmented (fun below belowMem => ?_) entry
          deeper
        refine names below (List.mem_flatMap.2 ⟨child, childMem, List.mem_cons_of_mem _ ?_⟩)
        rw [if_pos ‹_›]
        exact belowMem
      · exact absurd deeper List.not_mem_nil

/-- The last of `events`, changes with their paths, that adds or replaces a node at `path`. -/
def lastCreating (events : List (String × Change)) (path : String) : Option Change :=
  ((events.filter fun event => event.2.action.creates && decide (event.1 = path)).getLast?).map
    (·.2)

theorem lastCreating_append_singleton (events : List (String × Change)) (event : String × Change)
    (path : String) :
    lastCreating (events ++ [event]) path =
      if event.2.action.creates = true ∧ event.1 = path then some event.2
      else lastCreating events path := by
  by_cases creating : event.2.action.creates = true ∧ event.1 = path
  · simp [lastCreating, List.filter_append, creating]
  · rw [if_neg creating]
    have dropped : [event].filter (fun event => event.2.action.creates && decide (event.1 = path)) =
        [] := by
      simpa using creating
    simp only [lastCreating, List.filter_append, dropped, List.append_nil]

/-- No event at a path, no last one there. -/
theorem lastCreating_eq_none {events : List (String × Change)} {path : String}
    (apart : ∀ event ∈ events, event.1 ≠ path) : lastCreating events path = none := by
  have none : events.filter (fun event => event.2.action.creates && decide (event.1 = path)) =
      [] := by
    rw [List.filter_eq_nil_iff]
    intro event mem
    simp [apart event mem]
  simp [lastCreating, none]

/-- Sorting the events by path keeps the last event at each path: the events at one path keep
their order. -/
theorem lastCreating_sortByPath {changeSet : ChangeSet} {normalized : List (String × Change)}
    (pairs : normalized.map (·.2) = changeSet.changes)
    (paths : ∀ entry ∈ normalized, Path.normalize entry.2.path = .ok entry.1) (path : String) :
    lastCreating (sortByPath normalized) path = changeSet.lastCreatingAt path := by
  have split : ∀ events : List (String × Change),
      events.filter (fun event => event.2.action.creates && decide (event.1 = path)) =
        (events.filter fun entry => entry.1 = path).filter fun event => event.2.action.creates := by
    intro events
    rw [List.filter_filter]
  -- At each entry, its path is the normalized path of its change.
  have sameTest : normalized.filter (fun event => event.2.action.creates && decide (event.1 = path)) =
      normalized.filter fun event => event.2.action.creates &&
        decide ((Path.normalize event.2.path).toOption = some path) := by
    refine List.filter_congr fun entry mem => ?_
    rw [paths entry mem]
    simp [Except.toOption]
  unfold lastCreating ChangeSet.lastCreatingAt
  rw [split, sortByPath_filter, ← split, sameTest, ← List.getLast?_map, ← pairs, List.filter_map]
  rfl

/-- What a node the revision made came from, read off its path and its predecessor: with no
predecessor or a copy predecessor, the last event at its path that adds or replaces a node made
it, copying exactly when the predecessor is a copy of the root or of a row that held an earlier
revision; with an inherited predecessor, no such event is at its path, and it inherits from a row
that held an earlier revision. -/
structure MadeBy (rows : List NodeRecord) (R : Revnum) (lastAt : String → Option Change)
    (path : String) (predecessor : Option Predecessor) : Prop where
  segmented : Path.Segmented path
  plain : predecessor = none → ∃ change, lastAt path = some change ∧ change.copyFrom = none
  copied : ∀ id, predecessor = some { id := id, type := .copy } →
    ∃ change copy, lastAt path = some change ∧ change.copyFrom = some copy ∧ copy.revision < R ∧
      (id = NodeId.root ∨ ∃ row ∈ rows, row.id = id ∧ row.covers copy.revision)
  inherited : ∀ id, predecessor = some { id := id, type := .inherit } →
    lastAt path = none ∧ ∃ row ∈ rows, row.id = id ∧ ∃ r < R, row.covers r

variable {rows : List NodeRecord} {R : Revnum} {lastAt lastAt' : String → Option Change}

theorem MadeBy.relabel {path : String} {predecessor : Option Predecessor}
    (made : MadeBy rows R lastAt path predecessor) (same : lastAt' path = lastAt path) :
    MadeBy rows R lastAt' path predecessor := by
  obtain ⟨segmented, plain, copied, inherited⟩ := made
  rw [← same] at plain copied inherited
  exact ⟨segmented, plain, copied, inherited⟩

/-- Every node the revision made so far came as `MadeBy` says, and one that inherits sits under a
node made in the revision with a predecessor. -/
structure Origins (rows : List NodeRecord) (R : Revnum) (lastAt : String → Option Change)
    (s : Ingestor) : Prop where
  made : ∀ node ∈ s.tree.nodes, node.id ∈ s.schedule.createdSet →
    MadeBy rows R lastAt node.path node.predecessor
  beneath : ∀ node ∈ s.tree.nodes, node.id ∈ s.schedule.createdSet → ∀ id,
    node.predecessor = some { id := id, type := .inherit } →
    ∃ parent ∈ s.tree.nodes, parent.id = node.parent ∧ parent.id ∈ s.schedule.createdSet ∧
      parent.predecessor.isSome

namespace Origins

variable {s : Ingestor}

/-- The account reads the live tree and the nodes counted as made, nothing else. -/
theorem of_eq (origins : Origins rows R lastAt s) {s' : Ingestor} (tree : s'.tree = s.tree)
    (created : s'.schedule.createdSet = s.schedule.createdSet) : Origins rows R lastAt s' := by
  obtain ⟨made, beneath⟩ := origins
  rw [← tree, ← created] at made beneath
  exact ⟨made, beneath⟩

/-- The account holds against any last events that agree at the paths of the nodes made. -/
theorem relabel (origins : Origins rows R lastAt s)
    (agree : ∀ node ∈ s.tree.nodes, node.id ∈ s.schedule.createdSet →
      lastAt' node.path = lastAt node.path) : Origins rows R lastAt' s :=
  ⟨fun node mem made => (origins.made node mem made).relabel (agree node mem made),
    origins.beneath⟩

open LiveTree in
/-- Dropping a childless node keeps the account. -/
theorem drop (origins : Origins rows R lastAt s) (wf : s.tree.WellFormed) {path : String}
    {dropped : LiveTree × LiveNode} (dropping : s.tree.drop path = .ok dropped) :
    Origins rows R lastAt
      { s with tree := dropped.1, schedule := s.schedule.afterDrop dropped.2 } := by
  obtain ⟨gone, goneMem, -, -, leaf, rfl⟩ := wf.drop_eq_withDropped dropping
  constructor
  · intro node mem made
    obtain ⟨old, oldMem, -, rfl⟩ := mem_withDropped.1 mem
    exact origins.made old oldMem (List.mem_of_mem_erase (by simpa using made))
  · intro node mem made id inherits
    obtain ⟨old, oldMem, -, rfl⟩ := mem_withDropped.1 mem
    obtain ⟨parent, parentMem, parentId, parentMade, parentHas⟩ :=
      origins.beneath old oldMem (List.mem_of_mem_erase (by simpa using made)) id inherits
    have oldInherits : old.predecessor = some { id := id, type := .inherit } := inherits
    have parentStays : parent.id ≠ gone.id :=
      parentId ▸ wf.parent_ne_of_leaf goneMem leaf old oldMem
        (wf.id_ne_root_of_predecessor oldMem (by rw [oldInherits]; rfl))
    refine ⟨_, mem_withDropped.2 ⟨parent, parentMem, parentStays, rfl⟩, parentId, ?_, parentHas⟩
    simpa using (List.mem_erase_of_ne parentStays).2 parentMade

open LiveTree in
/-- Creating a node made as `MadeBy` says that does not inherit keeps the account. -/
theorem create (origins : Origins rows R lastAt s) (wf : s.tree.WellFormed) {new : NewNode}
    {created : LiveTree × LiveNode} (creating : s.tree.create new = .ok created)
    (made : MadeBy rows R lastAt new.path new.predecessor)
    (notInherited : ∀ id, new.predecessor ≠ some { id := id, type := .inherit })
    {schedule : Schedule} (creates : s.schedule.Creates schedule new.id) (lastId : NodeId) :
    Origins rows R lastAt { s with lastId := lastId, tree := created.1, schedule := schedule } := by
  obtain ⟨parent, name, -, -, -, freshId, -, rfl⟩ := wf.create_eq_withCreated creating
  -- A node made before is not the new one.
  have earlier : ∀ old ∈ s.tree.nodes, old.id ∈ schedule.createdSet →
      old.id ∈ s.schedule.createdSet := by
    intro old oldMem made
    rw [creates.createdSet] at made
    exact (List.mem_append.1 made).resolve_right fun isNew =>
      freshId old oldMem (List.mem_singleton.1 isNew)
  constructor
  · intro node mem madeNow
    rcases mem_withCreated.1 mem with rfl | ⟨old, oldMem, rfl⟩
    · exact made
    · exact origins.made old oldMem (earlier old oldMem madeNow)
  · intro node mem madeNow id inherits
    rcases mem_withCreated.1 mem with rfl | ⟨old, oldMem, rfl⟩
    · exact absurd inherits (notInherited id)
    · obtain ⟨above, aboveMem, aboveId, aboveMade, aboveHas⟩ :=
        origins.beneath old oldMem (earlier old oldMem madeNow) id inherits
      refine ⟨_, mem_withCreated.2 (.inr ⟨above, aboveMem, rfl⟩), aboveId, ?_, aboveHas⟩
      show above.id ∈ schedule.createdSet
      rw [creates.createdSet]
      exact List.mem_append_left _ aboveMade

open LiveTree in
/-- Copying below a node made in the revision with a predecessor keeps the account, when the copy
reads stored rows of an earlier revision into segmented paths no creating event has reached. -/
theorem copy {st st' : Ingestor} (origins : Origins rows R lastAt st)
    {copies : List (String × NodeRecord)} (copying : Copied R st st' copies) {store : Store}
    {copyRevision : Revnum} {target : String} {source : NodeId} {order : List NodeRecord}
    (orderEq : copies.map (·.2) = order)
    (mirrors : TreeHistory.Mirrors store copyRevision R st'.tree target source order
      (copyIds order source st.lastId st.lastId))
    (ids : (order.map (·.id)).Nodup) (notSource : ∀ x ∈ order, x.id ≠ source)
    (parents : ∀ x ∈ order, x.parent = source ∨ ∃ y ∈ order, y.id = x.parent)
    {top : LiveNode} (topMem : top ∈ st.tree.nodes) (topId : top.id = st.lastId)
    (topMade : top.id ∈ st.schedule.createdSet) (topHas : top.predecessor.isSome)
    (stored : ∀ x ∈ order, x ∈ rows ∧ ∃ r < R, x.covers r)
    (fresh : ∀ entry ∈ copies, Path.Segmented entry.1 ∧ lastAt entry.1 = none) :
    Origins rows R lastAt st' := by
  have wf' := copying.wellFormed
  have lengths : copies.length = order.length := by rw [← orderEq, List.length_map]
  have createdSet : st'.schedule.createdSet =
      st.schedule.createdSet ++ NodeId.following st.lastId copies.length := by
    rw [copying.schedule]
    rfl
  -- The `i`-th copy is the node the mirror has for the `i`-th row read.
  have copyAt : ∀ i (h : i < copies.length), ∃ node ∈ st'.tree.nodes,
      node.id = NodeId.next^[i + 1] st.lastId ∧ node.path = copies[i].1 ∧
        node.predecessor = some { id := order[i].id, type := .inherit } ∧
        node.parent = copyIds order source st.lastId st.lastId order[i].parent := by
    intro i h
    obtain ⟨node, mem, nodeId, -, path, -, -⟩ := copying.made i h
    obtain ⟨mirror, mirrorMem, mirrorId, -, -, mirrorPredecessor, mirrorParent, -⟩ :=
      mirrors.copies order[i] (List.getElem_mem _)
    rw [copyIds_getElem ids notSource] at mirrorId
    rw [wf'.eq_of_id_eq mirrorMem mem (mirrorId.trans nodeId.symm)] at mirrorPredecessor mirrorParent
    exact ⟨node, mem, nodeId, path, mirrorPredecessor, mirrorParent⟩
  -- A node made before the copy keeps its record and stays made.
  have kept : ∀ old ∈ st.tree.nodes, old.id ∈ st.schedule.createdSet →
      ∃ node ∈ st'.tree.nodes, node.toRecord = old.toRecord ∧
        node.id ∈ st'.schedule.createdSet := by
    intro old oldMem made
    obtain ⟨node, mem, record⟩ := copying.kept old oldMem
    have sameId : node.id = old.id := congrArg NodeRecord.id record
    refine ⟨node, mem, record, ?_⟩
    rw [createdSet, sameId]
    exact List.mem_append_left _ made
  -- Every node made is one made before the copy, or a copy.
  have madeCases : ∀ node ∈ st'.tree.nodes, node.id ∈ st'.schedule.createdSet →
      (∃ old ∈ st.tree.nodes, old.id ∈ st.schedule.createdSet ∧ node.toRecord = old.toRecord) ∨
        ∃ i, ∃ h : i < copies.length, node.id = NodeId.next^[i + 1] st.lastId := by
    intro node mem made
    rcases copying.onlyMade node mem with ⟨old, oldMem, record⟩ | ⟨i, h, isCopy⟩
    · refine .inl ⟨old, oldMem, ?_, record⟩
      have sameId : node.id = old.id := congrArg NodeRecord.id record
      rw [createdSet, sameId] at made
      refine (List.mem_append.1 made).resolve_right fun copied => ?_
      obtain ⟨i, iMem, isCopy⟩ := List.mem_map.1 copied
      exact copying.fresh i (List.mem_range.1 iMem) old oldMem isCopy.symm
    · exact .inr ⟨i, h, isCopy⟩
  constructor
  · intro node mem made
    rcases madeCases node mem made with ⟨old, oldMem, oldMade, record⟩ | ⟨i, h, isCopy⟩
    · have paths : node.path = old.path := congrArg NodeRecord.path record
      have predecessors : node.predecessor = old.predecessor :=
        congrArg NodeRecord.predecessor record
      rw [paths, predecessors]
      exact origins.made old oldMem oldMade
    · obtain ⟨copy, copyMem, copyId, copyPath, copyPredecessor, -⟩ := copyAt i h
      rw [wf'.eq_of_id_eq mem copyMem (isCopy.trans copyId.symm), copyPath, copyPredecessor]
      obtain ⟨segmented, unreached⟩ := fresh copies[i] (List.getElem_mem h)
      refine ⟨segmented, fun noPredecessor => absurd noPredecessor (by simp),
        fun id copied => absurd copied (by simp), fun id inherits => ⟨unreached, order[i],
          (stored order[i] (List.getElem_mem _)).1, by simpa using inherits,
          (stored order[i] (List.getElem_mem _)).2⟩⟩
  · intro node mem made id inherits
    rcases madeCases node mem made with ⟨old, oldMem, oldMade, record⟩ | ⟨i, h, isCopy⟩
    · have predecessors : node.predecessor = old.predecessor :=
        congrArg NodeRecord.predecessor record
      have parents : node.parent = old.parent := congrArg NodeRecord.parent record
      obtain ⟨above, aboveMem, aboveId, aboveMade, aboveHas⟩ :=
        origins.beneath old oldMem oldMade id (predecessors ▸ inherits)
      obtain ⟨above', aboveMem', aboveRecord, aboveMade'⟩ := kept above aboveMem aboveMade
      have sameId : above'.id = above.id := congrArg NodeRecord.id aboveRecord
      have samePredecessor : above'.predecessor = above.predecessor :=
        congrArg NodeRecord.predecessor aboveRecord
      exact ⟨above', aboveMem', by rw [sameId, aboveId, parents], aboveMade',
        samePredecessor ▸ aboveHas⟩
    · obtain ⟨copy, copyMem, copyId, -, -, copyParent⟩ := copyAt i h
      rw [wf'.eq_of_id_eq mem copyMem (isCopy.trans copyId.symm), copyParent]
      rcases parents order[i] (List.getElem_mem _) with underTop | ⟨y, yMem, yParent⟩
      · -- A copy of a child of the source sits under the node copied into.
        obtain ⟨top', topMem', topRecord, topMade'⟩ := kept top topMem topMade
        have sameId : top'.id = top.id := congrArg NodeRecord.id topRecord
        have samePredecessor : top'.predecessor = top.predecessor :=
          congrArg NodeRecord.predecessor topRecord
        exact ⟨top', topMem', by rw [underTop, copyIds_source, sameId, topId], topMade',
          samePredecessor ▸ topHas⟩
      · -- Any other copy sits under the copy of its row's parent.
        obtain ⟨j, hj, rfl⟩ := List.getElem_of_mem yMem
        obtain ⟨above, aboveMem, aboveId, -, abovePredecessor, -⟩ := copyAt j (by omega)
        refine ⟨above, aboveMem, by rw [aboveId, ← yParent, copyIds_getElem ids notSource], ?_,
          by rw [abovePredecessor]; rfl⟩
        rw [createdSet, aboveId]
        exact List.mem_append_right _ (List.mem_map.2 ⟨j, List.mem_range.2 (by omega), rfl⟩)

open LiveTree in
/-- Creating a node at a free path, made as `MadeBy` says, keeps the account under the new last
events. -/
theorem createAt (origins : Origins rows R lastAt s) (wf : s.tree.WellFormed) {new : NewNode}
    {created : LiveTree × LiveNode} (creating : s.tree.create new = .ok created)
    (agree : ∀ p, p ≠ new.path → lastAt' p = lastAt p)
    (made : MadeBy rows R lastAt' new.path new.predecessor)
    (notInherited : ∀ id, new.predecessor ≠ some { id := id, type := .inherit })
    {schedule : Schedule} (creates : s.schedule.Creates schedule new.id) (lastId : NodeId) :
    Origins rows R lastAt' { s with lastId := lastId, tree := created.1, schedule := schedule } := by
  obtain ⟨parent, name, parentMem, -, split, -, nameFree, -⟩ := wf.create_eq_withCreated creating
  have free := wf.path_ne_of_name_free parentMem split nameFree
  exact (origins.relabel fun node mem _ => agree _ (free node mem)).create wf creating made
    notInherited creates lastId

end Origins

/-- A node made in the revision whose parent was made in it too was made after its parent. -/
def ParentsFirst (s : Ingestor) : Prop :=
  ∀ node ∈ s.tree.nodes, node.id ∈ s.schedule.createdSet → node.parent ∈ s.schedule.createdSet →
    ∃ before after, s.schedule.created = before ++ after ∧ node.parent ∈ before ∧ node.id ∈ after

open LiveTree in
/-- Each change `apply` makes keeps parents made before their children. -/
theorem ParentsFirst.stable (base : LiveTree) (R : Revnum) :
    Stable R (fun s => Delta base R s ∧ ParentsFirst s) where
  drop s path dropped holds dropping := by
    obtain ⟨delta, first⟩ := holds
    refine ⟨(Delta.stable base R).drop s path dropped delta dropping, ?_⟩
    obtain ⟨gone, -, -, -, -, rfl⟩ := delta.wellFormed.drop_eq_withDropped dropping
    intro node mem made parentMade
    obtain ⟨old, oldMem, -, rfl⟩ := mem_withDropped.1 mem
    simp only [Schedule.afterDrop_createdSet, Schedule.afterDrop_created] at made parentMade ⊢
    exact first old oldMem (List.mem_of_mem_erase made) (List.mem_of_mem_erase parentMade)
  create s new created schedule holds nextId opens creating creates := by
    obtain ⟨delta, first⟩ := holds
    refine ⟨(Delta.stable base R).create s new created schedule delta nextId opens creating creates,
      ?_⟩
    obtain ⟨parent, name, parentMem, -, -, freshId, -, rfl⟩ :=
      delta.wellFormed.create_eq_withCreated creating
    intro node mem made parentMade
    dsimp only at mem made parentMade ⊢
    rw [creates.createdSet] at made parentMade
    rw [creates.created]
    rcases mem_withCreated.1 mem with rfl | ⟨old, oldMem, rfl⟩
    · -- The new node's parent was live before it, so made before it if made at all.
      have parentEarlier : parent.id ∈ s.schedule.createdSet :=
        (List.mem_append.1 parentMade).resolve_right fun isNew =>
          freshId parent parentMem (List.mem_singleton.1 isNew)
      exact ⟨s.schedule.created, [new.id], rfl, delta.listed _ parentEarlier,
        List.mem_singleton_self _⟩
    · -- Neither an older node nor its parent is the new one.
      have oldEarlier : old.id ∈ s.schedule.createdSet :=
        (List.mem_append.1 made).resolve_right fun isNew =>
          freshId old oldMem (List.mem_singleton.1 isNew)
      obtain ⟨above, aboveMem, aboveId, -, -⟩ :=
        delta.wellFormed.parentMem old oldMem (delta.notRoot _ oldEarlier)
      have parentEarlier : old.parent ∈ s.schedule.createdSet :=
        (List.mem_append.1 parentMade).resolve_right fun isNew =>
          freshId above aboveMem (aboveId.trans (List.mem_singleton.1 isNew))
      obtain ⟨before, after, createdEq, parentBefore, oldAfter⟩ :=
        first old oldMem oldEarlier parentEarlier
      exact ⟨before, after ++ [new.id], by rw [createdEq, List.append_assoc], parentBefore,
        List.mem_append_left _ oldAfter⟩
  setContent s node body holds mem isFile :=
    ⟨(Delta.stable base R).setContent s node body holds.1 mem isFile, holds.2⟩

/-- Applying a change set makes every node after its parent, when the parent is made in the
revision too. -/
theorem apply_parentsFirst {s s' : Ingestor} {store : Store} {changeSet : ChangeSet}
    (wf : s.tree.WellFormed) (applied : s.run (apply store changeSet) = (s', .ok ())) :
    ParentsFirst s' := by
  refine ((ParentsFirst.stable s.tree changeSet.revision).of_apply (fun empty => ?_) applied).2
  simp only [Schedule.isEmpty, Bool.and_eq_true, List.isEmpty_iff] at empty
  obtain ⟨⟨noneOutdated, noneCreated⟩, noContent⟩ := empty
  -- Nothing is made before the first event.
  have started : Delta s.tree changeSet.revision s :=
    Delta.start wf noneCreated noneOutdated noContent
  have unmade : ∀ id, id ∉ s.schedule.createdSet := by simp [noneCreated]
  exact ⟨started.reschedule rfl rfl rfl started.contentNodup started.contentLive,
    fun node _ made => absurd made (unmade _)⟩

/-! ## Steps that only drop nodes or set content -/

section Frame

variable {α : Type} {inv : Ingestor → Prop}
  (drop : ∀ s path dropped, inv s → s.tree.drop path = .ok dropped →
    inv { s with tree := dropped.1, schedule := s.schedule.afterDrop dropped.2 })
  (setContent : ∀ s (node : LiveNode) body, inv s →
    inv { s with schedule := { s.schedule with content := s.schedule.content.set node.id body } })

include drop in
/-- Deleting a subtree only drops childless nodes, so it keeps what dropping one keeps. -/
theorem keeps_delete_of_drop : ∀ fuel path, Keeps inv (delete fuel path)
  | 0, _ => keeps_pure ()
  | fuel + 1, path => by
    rw [delete]
    refine keeps_get_bind_of fun _ _ => keeps_ofTree_bind fun _ _ => ?_
    refine Keeps.bind (keeps_forM fun child _ => keeps_delete_of_drop fuel child) fun _ => ?_
    refine keeps_get_bind fun s s' u holds ran => ?_
    obtain ⟨s₁, dropped, dropRan, setRan⟩ := run_bind_eq_ok.1 ran
    simp only [run_ofTree, Prod.mk.injEq] at dropRan
    obtain ⟨rfl, dropRan⟩ := dropRan
    have dropping : s.tree.drop path = .ok dropped := by
      cases result : s.tree.drop path <;> simp_all
    simp only [run_set, Prod.mk.injEq] at setRan
    obtain ⟨rfl, -⟩ := setRan
    exact drop s path dropped holds dropping

include drop in
theorem keeps_deleteTree_of_drop (path : String) : Keeps inv (deleteTree path) := by
  unfold deleteTree
  exact Keeps.bind (keeps_of_run fun s => rfl) fun s => keeps_delete_of_drop drop _ path

include setContent in
/-- Modifying a file only sets its content, so it keeps what setting content keeps. -/
theorem keeps_modifyFile_of_setContent (path : String) (change : Change) :
    Keeps inv (modifyFile path change) := by
  unfold modifyFile
  refine keeps_get_bind fun s s' u holds ran => ?_
  obtain ⟨s₁, node, found, ran⟩ := run_bind_eq_ok.1 ran
  simp only [run_ofTree, Prod.mk.injEq] at found
  obtain ⟨rfl, -⟩ := found
  split at ran
  · simp only [run_updateSchedule, Prod.mk.injEq] at ran
    obtain ⟨rfl, -⟩ := ran
    exact setContent s node _ holds
  · simp only [run_pure, Prod.mk.injEq] at ran
    exact ran.1 ▸ holds

include drop setContent in
/-- A change that neither adds nor replaces a node only drops nodes or sets content. -/
theorem keeps_applyChange_of_not_creates (store : Store) (R : Revnum) (path : String)
    {change : Change} (notCreating : change.action.creates = false) :
    Keeps inv (applyChange store R path change) := by
  unfold applyChange
  split
  · split
    · exact keeps_pure ()
    · exact keeps_throw _
  · split
    · exact keeps_modifyFile_of_setContent setContent path change
    · exact keeps_deleteTree_of_drop drop path
    · rename_i isAdded
      simp [isAdded, ChangeAction.creates] at notCreating
    · rename_i isReplaced
      simp [isReplaced, ChangeAction.creates] at notCreating

end Frame

/-- A successful run of handing out an id and creating a node with it. -/
theorem run_create_eq_ok {α : Type} {new : NodeId → NewNode}
    {change : NodeId → Schedule → Schedule} {rest : NodeId → IngestM α} {s s' : Ingestor} {a : α}
    (ran : s.run (do
      let id ← allocate
      createNode (new id)
      updateSchedule (change id)
      rest id) = (s', .ok a)) :
    ∃ created, s.tree.create (new (NodeId.next s.lastId)) = .ok created ∧
      { s with lastId := NodeId.next s.lastId, tree := created.1,
               schedule := change (NodeId.next s.lastId) s.schedule }.run
        (rest (NodeId.next s.lastId)) = (s', .ok a) := by
  rw [run_bind, run_allocate] at ran
  dsimp only at ran
  obtain ⟨s₁, u, createRan, ran⟩ := run_bind_eq_ok.1 ran
  rw [run_createNode] at createRan
  cases creating : s.tree.create (new (NodeId.next s.lastId)) with
  | error e =>
    rw [creating] at createRan
    simp at createRan
  | ok created =>
    rw [creating] at createRan
    simp only [Prod.mk.injEq] at createRan
    obtain ⟨rfl, -⟩ := createRan
    obtain ⟨s₂, v, scheduleRan, restRan⟩ := run_bind_eq_ok.1 ran
    simp only [run_updateSchedule, Prod.mk.injEq] at scheduleRan
    obtain ⟨rfl, -⟩ := scheduleRan
    exact ⟨created, rfl, restRan⟩

/-- A successful run of a mapped step ran the step. -/
theorem run_map_eq_ok {α β : Type} {f : α → β} {m : IngestM α} {s s' : Ingestor} {b : β}
    (ran : s.run (f <$> m) = (s', .ok b)) : ∃ a, s.run m = (s', .ok a) ∧ f a = b := by
  rw [run_map] at ran
  obtain ⟨⟨s₁, outcome⟩, ranEq⟩ : ∃ r, s.run m = r := ⟨_, rfl⟩
  rw [ranEq] at ran
  cases outcome with
  | error e => simp at ran
  | ok a =>
    simp only [Prod.mk.injEq, Except.ok.injEq] at ran
    exact ⟨a, by rw [ranEq, ran.1], ran.2⟩

/-- A step that runs only when asked to either ran or changed nothing. -/
theorem run_ite_pure {c : Prop} [Decidable c] {m : IngestM Unit} {s s' : Ingestor}
    (ran : s.run (if c then m else pure ()) = (s', .ok ())) : s' = s ∨ s.run m = (s', .ok ()) := by
  split at ran
  · exact .inr ran
  · simp only [run_pure, Prod.mk.injEq] at ran
    exact .inl ran.1.symm

/-- Setting the content of one node, then running `rest`. -/
theorem run_content_then {α : Type} {c : Prop} [Decidable c] {id : NodeId} {body : ContentBody}
    {rest : IngestM α} {s s' : Ingestor} {a : α}
    (ran : s.run (if c then
        updateSchedule (fun schedule => { schedule with content := schedule.content.set id body }) >>=
          fun _ => rest
      else rest) = (s', .ok a)) :
    ∃ content, { s with schedule := { s.schedule with content := content } }.run rest =
      (s', .ok a) := by
  split at ran
  · obtain ⟨s₁, u, setRan, ran⟩ := run_bind_eq_ok.1 ran
    simp only [run_updateSchedule, Prod.mk.injEq] at setRan
    obtain ⟨rfl, -⟩ := setRan
    exact ⟨_, ran⟩
  · exact ⟨s.schedule.content, ran⟩

end Ingestor

/-- A row that holds a revision, in tables whose rows all sit at segmented paths, has a name that
is not empty. -/
theorem Tables.Records.name_ne_empty {t : Tables} {history : History} {r : Revnum}
    (records : t.Records history) (valid : history.Valid) (bounded : r ≤ Revnum.head)
    (segmentedRows : ∀ row ∈ t.nodes, Path.Segmented row.path) {x : NodeRecord}
    (xMem : x ∈ t.nodes.filter (·.covers r)) : x.name ≠ "" := by
  have wf := valid.treeAt_wellFormed r
  obtain ⟨nx, nxMem, nxRoot, nxRecord⟩ := records.node_of_row bounded xMem
  obtain ⟨p, -, -, -, split⟩ := wf.parentMem nx nxMem nxRoot
  have sameName : nx.name = x.name := congrArg NodeRecord.name nxRecord
  have samePath : nx.path = x.path := congrArg NodeRecord.path nxRecord
  have segmented : Path.Segmented nx.path := samePath ▸ segmentedRows x (List.mem_filter.1 xMem).1
  rw [← sameName]
  exact segmented.name_ne_empty split

/-- A segmented path is not empty. -/
theorem Path.Segmented.ne_empty {path : String} (segmented : Segmented path) : path ≠ "" := by
  rintro rfl
  obtain ⟨segs, -, chars⟩ := segmented
  cases segs <;> simp [renderChars] at chars

namespace Ingestor

/-! ## The nodes an event makes -/

section Recorded

open History

variable {engine : Engine} {lawful : engine.Lawful} {store : Store} {t t₀ : Tables}
  {txOpen : Bool} {history : History} {rows : List NodeRecord} {R : Revnum}
  {lastAt lastAt' : String → Option Change}
  (holds : store.Holds lawful t txOpen) (sameNodes : t.nodes = t₀.nodes)
  (records : t₀.Records history) (valid : history.Valid)
  (segmentedRows : ∀ row ∈ t₀.nodes, Path.Segmented row.path)

include holds sameNodes records valid in
/-- A copy source resolved against a store recording the history is the root or a stored row of
an earlier revision. -/
theorem run_resolveSource_eq_ok {s s' : Ingestor} {copy : CopySource} {source : Source}
    (delta : Delta (current history) R s) (headBound : R ≤ Revnum.head)
    (resolved : s.run (resolveSource store R copy) = (s', .ok source)) :
    s' = s ∧ copy.revision < R ∧ (source = { id := NodeId.root, kind := .dir } ∨
      ∃ row ∈ t₀.nodes, row.id = source.id ∧ row.kind = source.kind ∧
        row.covers copy.revision) := by
  have same : s' = s := by
    have kept := run_resolveSource s store R copy
    rw [resolved] at kept
    exact kept
  subst same
  -- The path normalizes and the revision is in range, or the resolution fails.
  cases normalizing : Path.normalize copy.path with
  | error e => simp [resolveSource, run_bind, normalizing] at resolved
  | ok path =>
    have inRange : 1 ≤ copy.revision ∧ copy.revision < R := by
      by_contra outside
      have refused : copy.revision < 1 ∨ copy.revision ≥ R := by
        unfold Revnum at *
        omega
      simp [resolveSource, run_bind, normalizing, refused] at resolved
    obtain ⟨atRoot, elsewhere⟩ := copy_source_is_node_at holds sameNodes records valid delta
      headBound normalizing inRange.1 inRange.2
    refine ⟨rfl, inRange.2, ?_⟩
    by_cases isRoot : path = Path.root
    · rw [atRoot isRoot, Prod.mk.injEq, Except.ok.injEq] at resolved
      exact .inl resolved.2.symm
    · obtain ⟨found, atNode, someRow, noRow, -⟩ := elsewhere isRoot
      cases found with
      | none =>
        rw [noRow rfl] at resolved
        simp at resolved
      | some row =>
        rw [someRow row rfl, Prod.mk.injEq, Except.ok.injEq] at resolved
        obtain ⟨rowMem, -, covers⟩ := holds.nodeAt_mem atNode
        exact .inr ⟨row, sameNodes ▸ rowMem, by rw [← resolved.2], by rw [← resolved.2], covers⟩

include holds sameNodes records valid segmentedRows in
/-- Copying into a childless node just made with a predecessor keeps the account. -/
theorem deepCopy_origins {st st' : Ingestor} (wf : st.tree.WellFormed)
    (origins : Origins t₀.nodes R lastAt st) {top : LiveNode} (topMem : top ∈ st.tree.nodes)
    (topId : top.id = st.lastId) (topMade : top.id ∈ st.schedule.createdSet)
    (topHas : top.predecessor.isSome) (topLeaf : top.children = []) {target : String}
    (topPath : top.path = target) (notRoot : target ≠ Path.root)
    (segmented : Path.Segmented target)
    (unreached : ∀ p, Path.Within target p → p ≠ target → lastAt p = none) {source : NodeId}
    {copyRevision : Revnum} (early : copyRevision < R) (headBound : R ≤ Revnum.head)
    (ran : st.run (deepCopy store R (store.nodeCount + 1) target source copyRevision) =
      (st', .ok ())) :
    Origins t₀.nodes R lastAt st' := by
  have bounded : copyRevision ≤ Revnum.head := le_trans early.le headBound
  have nonempty := segmented.ne_empty
  obtain ⟨copying, complete, mirrors⟩ := deepCopy_mirrors holds sameNodes records valid bounded wf
    topMem topPath topLeaf notRoot nonempty ran
  rw [topId] at mirrors
  have forest : Forest (t.nodes.filter (·.covers copyRevision)) :=
    sameNodes ▸ records.forest valid copyRevision
  obtain ⟨ids, notSource⟩ := order_ids holds forest
  -- The rows read are stored rows that held the copy's revision.
  have stored : ∀ x ∈ copied store copyRevision (store.nodeCount + 1) source,
      x ∈ t₀.nodes.filter (·.covers copyRevision) :=
    fun x mem => sameNodes ▸ (below_of_mem_order holds mem).1
  refine origins.copy copying (map_copyTrace _ _ _) mirrors ids notSource (fun x mem => ?_) topMem
    topId topMade topHas (fun x mem => ?_) (fun entry mem => ?_)
  · -- A row below the source hangs from the source or from another row below it.
    rcases (complete x).1 mem with ⟨-, parent⟩ | ⟨below, -, parent⟩
    · exact .inl parent
    · exact .inr ⟨_, (complete _).2 below, parent.symm⟩
  · obtain ⟨rowMem, rowCovers⟩ := List.mem_filter.1 (stored x mem)
    exact ⟨rowMem, copyRevision, early, rowCovers⟩
  · have lengthPos : 0 < target.toList.length :=
      List.length_pos_iff.2 fun empty => nonempty (String.toList_inj.1 (by simpa using empty))
    obtain ⟨within, longer⟩ := copyTrace_within _ target source lengthPos notRoot entry mem
    refine ⟨copyTrace_segmented _ target source segmented (fun copy copyMem => ?_) entry mem,
      unreached _ within fun same => by rw [same] at longer; omega⟩
    have row : copy.2 ∈ copied store copyRevision (store.nodeCount + 1) source := by
      rw [← map_copyTrace]
      exact List.mem_map_of_mem copyMem
    exact ⟨records.name_ne_empty valid bounded segmentedRows (stored _ row),
      records.not_slash_name valid bounded (stored _ row)⟩

include holds sameNodes records valid segmentedRows in
/-- Adding the node of a change at its normalized path keeps the account. -/
theorem add_origins {s s' : Ingestor} {raw path : String} {change : Change}
    (delta : Delta (current history) R s) (headBound : R ≤ Revnum.head)
    (origins : Origins t₀.nodes R lastAt s) (normalized : Path.normalize raw = .ok path)
    (agree : ∀ p, p ≠ path → lastAt' p = lastAt p) (atPath : lastAt' path = some change)
    (unreached : ∀ p, Path.Within path p → p ≠ path → lastAt' p = none)
    (ran : s.run (add store R path change) = (s', .ok ())) : Origins t₀.nodes R lastAt' s' := by
  have wf := delta.wellFormed
  have segmented := Path.Segmented.of_normalize normalized
  unfold add at ran
  dsimp only at ran
  split at ran
  · -- A copy: the source resolves to the root or a stored row, and the node copies it.
    rename_i copy copyFrom
    rw [run_bind_eq_ok] at ran
    obtain ⟨s₁, source, resolving, ran⟩ := ran
    obtain ⟨src, resolved, rfl⟩ := run_map_eq_ok resolving
    obtain ⟨same, early, origin⟩ :=
      run_resolveSource_eq_ok holds sameNodes records valid delta headBound resolved
    subst s₁
    obtain ⟨created, creating, ran⟩ := run_create_eq_ok ran
    obtain ⟨content, ran⟩ := run_content_then ran
    simp only [copyFrom] at ran
    have made : MadeBy t₀.nodes R lastAt' path (some { id := src.id, type := .copy }) := by
      refine ⟨segmented, fun noPredecessor => by simp at noPredecessor, fun id copied => ?_,
        fun id inherited => by simp at inherited⟩
      have sameId : src.id = id := by simpa using copied
      refine ⟨change, copy, atPath, copyFrom, early, ?_⟩
      rcases origin with rfl | ⟨row, rowMem, rowId, -, covers⟩
      · exact .inl sameId.symm
      · exact .inr ⟨row, rowMem, rowId.trans sameId, covers⟩
    have creates : s.schedule.Creates (s.schedule.create (NodeId.next s.lastId))
        (NodeId.next s.lastId) := ⟨rfl, rfl, rfl, rfl, rfl⟩
    have topOrigins := origins.createAt wf creating agree made (fun id same => by simp at same)
      creates (NodeId.next s.lastId)
    have contentOrigins : Origins t₀.nodes R lastAt'
        { s with lastId := NodeId.next s.lastId, tree := created.1,
                 schedule := { s.schedule.create (NodeId.next s.lastId) with content := content } } :=
      topOrigins.of_eq rfl rfl
    obtain ⟨parent, name, -, -, split, -, -, rfl⟩ := wf.create_eq_withCreated creating
    rcases run_ite_pure ran with rfl | ran
    · exact contentOrigins
    · -- A copied directory: what was below the source is copied into the new node.
      exact deepCopy_origins holds sameNodes records valid segmentedRows (wf.create creating)
        contentOrigins (LiveTree.mem_withCreated.2 (.inl rfl)) rfl
        (List.mem_append_right _ (List.mem_singleton_self _)) rfl rfl rfl
        (LiveTree.ne_root_of_split split) segmented unreached early headBound ran
  · -- No copy: the node has no predecessor, and nothing else is made.
    rename_i noCopy
    rw [run_bind_eq_ok] at ran
    obtain ⟨s₁, source, resolving, ran⟩ := ran
    simp only [run_pure, Prod.mk.injEq, Except.ok.injEq] at resolving
    obtain ⟨rfl, rfl⟩ := resolving
    obtain ⟨created, creating, ran⟩ := run_create_eq_ok ran
    obtain ⟨content, ran⟩ := run_content_then ran
    simp only [run_pure, Prod.mk.injEq] at ran
    have made : MadeBy t₀.nodes R lastAt' path none :=
      ⟨segmented, fun _ => ⟨change, atPath, noCopy⟩, fun id copied => by simp at copied,
        fun id inherited => by simp at inherited⟩
    have creates : s.schedule.Creates (s.schedule.create (NodeId.next s.lastId))
        (NodeId.next s.lastId) := ⟨rfl, rfl, rfl, rfl, rfl⟩
    exact ran.1 ▸ (origins.createAt wf creating agree made (fun id same => by simp at same)
      creates (NodeId.next s.lastId)).of_eq rfl rfl

include holds sameNodes records valid segmentedRows in
/-- Each event, applied in path order after the events before it, keeps the account: only an
event that adds or replaces a node changes the last event at its path, and it makes the node
there. -/
theorem applyChange_origins {s s' : Ingestor} {done : List (String × Change)} {raw path : String}
    {change : Change} (delta : Delta (current history) R s) (headBound : R ≤ Revnum.head)
    (origins : Origins t₀.nodes R (lastCreating done) s) (sorted : ∀ event ∈ done, event.1 ≤ path)
    (normalized : Path.normalize raw = .ok path)
    (ran : s.run (applyChange store R path change) = (s', .ok ())) :
    Origins t₀.nodes R (lastCreating (done ++ [(path, change)])) s' := by
  -- Dropping a childless node keeps the account and the accounting of the revision.
  have drop : ∀ s path dropped,
      (Delta (current history) R s ∧ Origins t₀.nodes R (lastCreating done) s) →
      s.tree.drop path = .ok dropped →
      Delta (current history) R { s with tree := dropped.1, schedule := s.schedule.afterDrop dropped.2 } ∧
        Origins t₀.nodes R (lastCreating done)
          { s with tree := dropped.1, schedule := s.schedule.afterDrop dropped.2 } :=
    fun s path dropped holds dropping =>
      ⟨(Delta.stable _ R).drop s path dropped holds.1 dropping, holds.2.drop holds.1.wellFormed dropping⟩
  cases creating : change.action.creates with
  | false =>
    have same : lastCreating (done ++ [(path, change)]) = lastCreating done := by
      funext p
      rw [lastCreating_append_singleton,
        if_neg fun both => Bool.false_ne_true (creating.symm.trans both.1)]
    rw [same]
    have keeps : Keeps (fun s => s.tree.WellFormed ∧ Origins t₀.nodes R (lastCreating done) s)
        (applyChange store R path change) :=
      keeps_applyChange_of_not_creates
        (fun s path dropped holds dropping => ⟨holds.1.drop dropping, holds.2.drop holds.1 dropping⟩)
        (fun s node body holds => ⟨holds.1, holds.2.of_eq rfl rfl⟩) store R path creating
    exact (keeps s s' () ⟨delta.wellFormed, origins⟩ ran).2
  | true =>
    have action : change.action = .added ∨ change.action = .replaced := by
      cases isAction : change.action <;> simp_all [ChangeAction.creates]
    obtain ⟨-, s₁, ⟨delta₁, origins₁⟩, addRan⟩ := run_applyChange_adding_of
      (keeps_deleteTree_of_drop drop path) ⟨delta, origins⟩ action ran
    refine add_origins holds sameNodes records valid segmentedRows delta₁ headBound origins₁
      normalized (fun p apart => ?_) ?_ (fun p within apart => ?_) addRan
    · rw [lastCreating_append_singleton, if_neg fun both => apart both.2.symm]
    · rw [lastCreating_append_singleton, if_pos ⟨creating, rfl⟩]
    · -- Below the path no event was applied yet: every earlier one sorts no later than it.
      rw [lastCreating_append_singleton, if_neg fun both => apart both.2.symm]
      refine lastCreating_eq_none fun event mem atPath => ?_
      exact absurd (sorted event mem) (not_le.2 (atPath ▸ within.lt (Ne.symm apart)))

include holds sameNodes records valid segmentedRows in
/-- Applying events in path order keeps the account against the events applied so far. -/
theorem forM_origins (headBound : R ≤ Revnum.head) :
    ∀ (events done : List (String × Change)) {s s' : Ingestor},
      (done ++ events).Pairwise (fun a b => a.1 ≤ b.1) →
      (∀ event ∈ events, ∃ raw, Path.normalize raw = .ok event.1) →
      Delta (current history) R s → Origins t₀.nodes R (lastCreating done) s →
      s.run (events.forM fun event => applyChange store R event.1 event.2) = (s', .ok ()) →
      Origins t₀.nodes R (lastCreating (done ++ events)) s'
  | [], done, s, s', _, _, _, origins, ran => by
    simp only [List.forM_eq_forM, List.forM_nil, run_pure, Prod.mk.injEq] at ran
    rw [List.append_nil, ← ran.1]
    exact origins
  | event :: rest, done, s, s', sorted, normal, delta, origins, ran => by
    simp only [List.forM_eq_forM, List.forM_cons] at ran
    obtain ⟨s₁, u, first, restRan⟩ := run_bind_eq_ok.1 ran
    have delta₁ := (Delta.stable _ R).within.keeps_applyChange store trivial event.2 s s₁ u delta
      first
    obtain ⟨raw, normalized⟩ := normal event List.mem_cons_self
    have earlier : ∀ before ∈ done, before.1 ≤ event.1 :=
      fun before mem => (List.pairwise_append.1 sorted).2.2 before mem event List.mem_cons_self
    have origins₁ := applyChange_origins holds sameNodes records valid segmentedRows delta
      headBound origins earlier normalized first
    have after := forM_origins headBound rest (done ++ [event]) (by simpa using sorted)
      (fun later mem => normal later (List.mem_cons_of_mem _ mem)) delta₁ origins₁ restRan
    simpa using after

include holds sameNodes records valid segmentedRows in
/-- After a revision applies on top of the committed tree, every node it made came from its events
as `MadeBy` says. -/
theorem apply_origins {s s' : Ingestor} {changeSet : ChangeSet} (wf : s.tree.WellFormed)
    (same : s.tree.Same (current history)) (headBound : changeSet.revision ≤ Revnum.head)
    (applied : s.run (apply store changeSet) = (s', .ok ())) :
    Origins t₀.nodes changeSet.revision changeSet.lastCreatingAt s' := by
  obtain ⟨empty, normalized, pairs, paths, applyRan⟩ := run_apply_eq_ok applied
  simp only [Schedule.isEmpty, Bool.and_eq_true, List.isEmpty_iff] at empty
  obtain ⟨⟨noneOutdated, noneCreated⟩, noContent⟩ := empty
  -- Nothing is made before the first event.
  have begun : Delta s.tree changeSet.revision
      { s with schedule := { s.schedule with revision := some changeSet.revision } } := by
    have started : Delta s.tree changeSet.revision s :=
      Delta.start wf noneCreated noneOutdated noContent
    exact started.reschedule rfl rfl rfl started.contentNodup started.contentLive
  have unmade : ∀ id, id ∉ s.schedule.createdSet := by simp [noneCreated]
  have nothing : Origins t₀.nodes changeSet.revision (lastCreating [])
      { s with schedule := { s.schedule with revision := some changeSet.revision } } :=
    ⟨fun node _ made => absurd made (unmade _), fun node _ made => absurd made (unmade _)⟩
  have after := forM_origins holds sameNodes records valid segmentedRows headBound
    (sortByPath normalized) [] (by simpa using sortByPath_sorted normalized)
    (fun event mem => ⟨event.2.path, paths event ((sortByPath_perm normalized).subset mem)⟩)
    (begun.of_same same) nothing applyRan
  exact after.relabel fun node _ _ => (lastCreating_sortByPath pairs paths node.path).symm

end Recorded

end Ingestor

end TreeHistory
