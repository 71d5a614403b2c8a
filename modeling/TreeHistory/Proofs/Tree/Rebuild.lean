import TreeHistory.Proofs.Tree.WellFormed
import Mathlib.Data.List.TakeDrop

/-!
# Rebuilding the live tree from its records

`ofRecords` creates the nodes in the order given and checks the parent each names. From any listing
of a well-formed tree's records in order of path, every node finds its parent built, and the
rebuilt tree is the same (`LiveTree.Same`: the node with each id and the id of each path).
-/

namespace TreeHistory

namespace Path

theorem breakLast_eq_some {chars parent name : List Char}
    (broken : breakLast chars = some (parent, name)) : chars = parent ++ '/' :: name := by
  unfold breakLast at broken
  rw [List.span_eq_takeWhile_dropWhile] at broken
  generalize dropped : List.dropWhile (fun c => c != '/') chars.reverse = rest at broken
  cases rest with
  | nil => simp at broken
  | cons slash parentRev =>
    simp only [Option.some.injEq, Prod.mk.injEq] at broken
    obtain ⟨rfl, rfl⟩ := broken
    -- the name is what `takeWhile` kept of the reversed path, and it stopped at a slash
    have isSlash : slash = '/' := by
      have stopped := @List.head_dropWhile_not Char (fun c => c != '/') chars.reverse
        (by simp [dropped])
      simpa [dropped] using stopped
    have whole : List.takeWhile (fun c => c != '/') chars.reverse ++ slash :: parentRev =
        chars.reverse := by
      rw [← dropped, List.takeWhile_append_dropWhile]
    calc chars = (List.takeWhile (fun c => c != '/') chars.reverse ++ slash :: parentRev).reverse := by
          rw [whole, List.reverse_reverse]
      _ = _ := by simp [isSlash]

/-- A path sorts after the path of its parent. -/
theorem split_lt {path parent name : String} (split : Path.split path = .ok (parent, name)) :
    parent < path := by
  unfold Path.split at split
  by_cases isRoot : path = root
  · simp [isRoot] at split
  cases broken : breakLast path.toList with
  | none => simp [isRoot, broken] at split
  | some pieces =>
    obtain ⟨parentChars, nameChars⟩ := pieces
    have chars := breakLast_eq_some broken
    rw [String.lt_iff]
    cases parentChars with
    | nil =>
      simp only [isRoot, broken, if_false, Except.ok.injEq, Prod.mk.injEq] at split
      obtain ⟨rfl, -⟩ := split
      -- the path is the root's slash followed by a name, which is not empty
      cases nameChars with
      | nil =>
        exact absurd (String.toList_inj.1 (by rw [chars]; rfl)) isRoot
      | cons first rest =>
        rw [chars]
        exact List.cons_lt_cons_iff.2 (Or.inr ⟨rfl, List.nil_lt_cons _ _⟩)
    | cons first rest =>
      simp only [isRoot, broken, if_false, Except.ok.injEq, Prod.mk.injEq] at split
      obtain ⟨rfl, -⟩ := split
      rw [chars, String.toList_ofList]
      have longer : (first :: rest) ++ [] < (first :: rest) ++ '/' :: nameChars :=
        List.append_left_lt (List.nil_lt_cons '/' nameChars)
      simpa using longer

end Path

namespace LiveNode

/-- A node is its record together with its children. -/
theorem ext_of_toRecord {node other : LiveNode} (sameRecord : node.toRecord = other.toRecord)
    (sameChildren : node.children = other.children) : node = other := by
  cases node
  cases other
  simp only [toRecord, NodeRecord.mk.injEq] at sameRecord
  simp only at sameChildren
  obtain ⟨rfl, rfl, -, rfl, rfl, rfl, rfl, rfl⟩ := sameRecord
  rw [sameChildren]

end LiveNode

namespace LiveTree

/-- The stored form of every node but the root. -/
def records (tree : LiveTree) : List NodeRecord :=
  (tree.nodes.filter fun node => node.id != NodeId.root).map LiveNode.toRecord

theorem mem_records {tree : LiveTree} {record : NodeRecord} :
    record ∈ tree.records ↔
      ∃ node ∈ tree.nodes, node.id ≠ NodeId.root ∧ node.toRecord = record := by
  simp [records, and_assoc]

/-- Two trees hold the same nodes, children included, and index the same paths. -/
structure Same (tree other : LiveTree) : Prop where
  node? : ∀ id, tree.node? id = other.node? id
  pathId? : ∀ path, tree.pathId? path = other.pathId? path

theorem Same.refl (tree : LiveTree) : tree.Same tree := ⟨fun _ => rfl, fun _ => rfl⟩

theorem Same.symm {tree other : LiveTree} (same : tree.Same other) : other.Same tree :=
  ⟨fun id => (same.node? id).symm, fun path => (same.pathId? path).symm⟩

theorem Same.trans {tree other third : LiveTree} (same : tree.Same other)
    (same' : other.Same third) : tree.Same third :=
  ⟨fun id => (same.node? id).trans (same'.node? id),
    fun path => (same.pathId? path).trans (same'.pathId? path)⟩

theorem Same.find? {tree other : LiveTree} (same : tree.Same other) (path : String) :
    tree.find? path = other.find? path := by
  unfold LiveTree.find?
  rw [same.pathId? path]
  cases other.pathId? path with
  | none => rfl
  | some id => exact same.node? id

theorem Same.recordOf? {tree other : LiveTree} (same : tree.Same other) (id : NodeId) :
    tree.recordOf? id = other.recordOf? id := by
  unfold LiveTree.recordOf?
  rw [same.node? id]

namespace WellFormed

variable {tree other : LiveTree}

theorem recordOf?_eq_some_iff (wf : tree.WellFormed) {id : NodeId} {record : NodeRecord} :
    tree.recordOf? id = some record ↔
      ∃ node ∈ tree.nodes, node.id = id ∧ node.toRecord = record := by
  unfold LiveTree.recordOf?
  rw [Option.map_eq_some_iff]
  constructor
  · rintro ⟨node, found, rfl⟩
    obtain ⟨nodeMem, rfl⟩ := wf.node?_eq_some_iff.1 found
    exact ⟨node, nodeMem, rfl, rfl⟩
  · rintro ⟨node, nodeMem, rfl, rfl⟩
    exact ⟨node, wf.node?_eq_some_iff.2 ⟨nodeMem, rfl⟩, rfl⟩

theorem recordOf?_of_mem (wf : tree.WellFormed) {node : LiveNode} (nodeMem : node ∈ tree.nodes) :
    tree.recordOf? node.id = some node.toRecord :=
  wf.recordOf?_eq_some_iff.2 ⟨node, nodeMem, rfl, rfl⟩

/-- The records of a well-formed tree are those its ids give, the root's apart. -/
theorem mem_records_iff (wf : tree.WellFormed) {record : NodeRecord} :
    record ∈ tree.records ↔ record.id ≠ NodeId.root ∧ tree.recordOf? record.id = some record := by
  rw [mem_records]
  constructor
  · rintro ⟨node, nodeMem, notRoot, rfl⟩
    exact ⟨notRoot, wf.recordOf?_of_mem nodeMem⟩
  · rintro ⟨notRoot, found⟩
    obtain ⟨node, nodeMem, sameId, rfl⟩ := wf.recordOf?_eq_some_iff.1 found
    exact ⟨node, nodeMem, notRoot, rfl⟩

/-- Well-formed trees that hold the same nodes have the same records. -/
theorem mem_records_of_same (wf : tree.WellFormed) (otherWf : other.WellFormed)
    (same : tree.Same other) {record : NodeRecord} : record ∈ tree.records ↔ record ∈ other.records := by
  rw [wf.mem_records_iff, otherWf.mem_records_iff, same.recordOf?]

/-- A well-formed tree has one record per id. -/
theorem records_ids_nodup (wf : tree.WellFormed) : (tree.records.map (·.id)).Nodup := by
  unfold records
  rw [List.map_map]
  exact wf.idsNodup.sublist (List.filter_sublist.map _)

/-- A node of one tree has a copy with the same record in any well-formed tree with the same
records. -/
theorem exists_copy (otherWf : other.WellFormed)
    (sameRecords : ∀ id, tree.recordOf? id = other.recordOf? id) (wf : tree.WellFormed)
    {node : LiveNode} (nodeMem : node ∈ tree.nodes) :
    ∃ copy ∈ other.nodes, copy.toRecord = node.toRecord := by
  have found := wf.recordOf?_of_mem nodeMem
  rw [sameRecords] at found
  obtain ⟨copy, copyMem, -, copyRecord⟩ := otherWf.recordOf?_eq_some_iff.1 found
  exact ⟨copy, copyMem, copyRecord⟩

/-- In well-formed trees with the same records, a node of one is a node of the other: its
children are the nodes that name it as parent, which both trees agree on. -/
theorem mem_of_same_records (wf : tree.WellFormed) (otherWf : other.WellFormed)
    (sameRecords : ∀ id, tree.recordOf? id = other.recordOf? id) {node : LiveNode}
    (nodeMem : node ∈ tree.nodes) : node ∈ other.nodes := by
  have back : ∀ id, other.recordOf? id = tree.recordOf? id := fun id => (sameRecords id).symm
  obtain ⟨copy, copyMem, copyRecord⟩ := otherWf.exists_copy sameRecords wf nodeMem
  have sameId : copy.id = node.id := by rw [← LiveNode.toRecord_id, copyRecord]; rfl
  have sameChildren : node.children = copy.children := by
    apply Children.Sorted.eq_of_mem_iff (wf.childrenSorted node nodeMem)
      (otherWf.childrenSorted copy copyMem)
    intro entry
    rw [wf.memChildren node nodeMem, otherWf.memChildren copy copyMem]
    constructor
    · rintro ⟨child, childMem, notRoot, childParent, rfl⟩
      obtain ⟨childCopy, childCopyMem, childRecord⟩ :=
        otherWf.exists_copy sameRecords wf childMem
      have fields := NodeRecord.mk.inj childRecord
      exact ⟨childCopy, childCopyMem, fields.1 ▸ notRoot, by rw [fields.2.2.2.1, sameId, childParent],
        by rw [fields.1, fields.2.2.2.2.2.1]⟩
    · rintro ⟨child, childMem, notRoot, childParent, rfl⟩
      obtain ⟨childCopy, childCopyMem, childRecord⟩ := wf.exists_copy back otherWf childMem
      have fields := NodeRecord.mk.inj childRecord
      exact ⟨childCopy, childCopyMem, fields.1 ▸ notRoot,
        by rw [fields.2.2.2.1, childParent, sameId], by rw [fields.1, fields.2.2.2.2.2.1]⟩
  rw [LiveNode.ext_of_toRecord copyRecord.symm sameChildren]
  exact copyMem

/-- Well-formed trees with the same records are the same tree. -/
theorem same_of_records (wf : tree.WellFormed) (otherWf : other.WellFormed)
    (sameRecords : ∀ id, tree.recordOf? id = other.recordOf? id) : tree.Same other := by
  have back : ∀ id, other.recordOf? id = tree.recordOf? id := fun id => (sameRecords id).symm
  have sameNodes : ∀ node, node ∈ tree.nodes ↔ node ∈ other.nodes := fun node =>
    ⟨wf.mem_of_same_records otherWf sameRecords, otherWf.mem_of_same_records wf back⟩
  constructor
  · intro id
    apply Option.ext
    intro node
    rw [wf.node?_eq_some_iff, otherWf.node?_eq_some_iff, sameNodes]
  · intro path
    apply Option.ext
    intro id
    rw [wf.pathId?_eq_some_iff, otherWf.pathId?_eq_some_iff]
    simp only [sameNodes]

/-- Adding the record of a node whose parent is built, to a tree that holds the records of the
built ids, builds that node too. -/
theorem addRecord_of_parent_built (wf : tree.WellFormed) {part : LiveTree}
    (partWf : part.WellFormed) {built : List NodeId}
    (restricted : ∀ id, part.recordOf? id = if id ∈ built then tree.recordOf? id else none)
    {node : LiveNode} (nodeMem : node ∈ tree.nodes) (notRoot : node.id ≠ NodeId.root)
    (fresh : node.id ∉ built) (parentBuilt : node.parent ∈ built) :
    ∃ rebuilt, part.addRecord node.toRecord = .ok rebuilt ∧ rebuilt.WellFormed ∧
      ∀ id, rebuilt.recordOf? id = if id ∈ node.id :: built then tree.recordOf? id else none := by
  obtain ⟨parent, parentMem, parentId, parentDir, split⟩ := wf.parentMem node nodeMem notRoot
  -- the parent is built already: `copy` is its node in the partial tree
  have parentFound : part.recordOf? parent.id = some parent.toRecord := by
    rw [restricted, if_pos (parentId ▸ parentBuilt), wf.recordOf?_of_mem parentMem]
  obtain ⟨copy, copyMem, copyId, copyRecord⟩ := partWf.recordOf?_eq_some_iff.1 parentFound
  have copyKind : copy.kind = parent.kind := congrArg NodeRecord.kind copyRecord
  have copyPath : copy.path = parent.path := congrArg NodeRecord.path copyRecord
  have freshId : ∀ other ∈ part.nodes, other.id ≠ node.id := by
    intro other otherMem sameId
    have found := partWf.recordOf?_of_mem otherMem
    rw [restricted, sameId, if_neg fresh] at found
    cases found
  -- a built child of the parent with the node's name would be the node itself
  have nameFree : ∀ entry ∈ copy.children, entry.1 ≠ node.name := by
    intro entry entryMem sameName
    obtain ⟨child, childMem, childNotRoot, childParent, rfl⟩ :=
      (partWf.memChildren copy copyMem entry).1 entryMem
    have childFound := partWf.recordOf?_of_mem childMem
    have childBuilt : child.id ∈ built := by
      by_contra notBuilt
      rw [restricted, if_neg notBuilt] at childFound
      cases childFound
    rw [restricted, if_pos childBuilt] at childFound
    obtain ⟨original, originalMem, originalId, originalRecord⟩ :=
      wf.recordOf?_eq_some_iff.1 childFound
    have originalParent : original.parent = parent.id :=
      (congrArg NodeRecord.parent originalRecord).trans (childParent.trans copyId)
    have originalListed := (wf.memChildren parent parentMem (original.name, original.id)).2
      ⟨original, originalMem, originalId ▸ childNotRoot, originalParent, rfl⟩
    have nodeListed := (wf.memChildren parent parentMem (node.name, node.id)).2
      ⟨node, nodeMem, notRoot, parentId.symm, rfl⟩
    have sameEntry := (wf.childrenSorted parent parentMem).eq_of_name_eq originalListed nodeListed
      ((congrArg NodeRecord.name originalRecord).trans sameName)
    have sameId : original.id = node.id := congrArg Prod.snd sameEntry
    rw [← sameId, originalId] at fresh
    exact fresh childBuilt
  let new : NewNode :=
    { id := node.id, revMin := node.revMin, path := node.path, kind := node.kind,
      predecessor := node.predecessor }
  have created :
      part.create
          { id := node.id, revMin := node.revMin, path := node.path, kind := node.kind,
            predecessor := node.predecessor } =
        .ok (part.withCreated new copy node.name, createdNode new copy.id node.name) :=
    partWf.create_eq_withCreated_of copyMem (copyKind.trans parentDir)
      (by rw [copyPath]; exact split) freshId nameFree
  have createdRecord : (createdNode new copy.id node.name).toRecord = node.toRecord := by
    simp [new, createdNode, LiveNode.toRecord, copyId, parentId]
  have createdWf : (part.withCreated new copy node.name).WellFormed :=
    partWf.withCreated copyMem (copyKind.trans parentDir) (by rw [copyPath]; exact split) freshId
      nameFree
  refine ⟨_, ?_, createdWf, ?_⟩
  · simp [addRecord, LiveNode.toRecord, created, createdNode, copyId, parentId, bind, Except.bind,
      pure, Except.pure]
  · intro id
    rw [recordOf?_withCreated freshId]
    by_cases isNode : id = node.id
    · subst isNode
      rw [if_pos rfl, createdRecord, if_pos (List.mem_cons_self ..), wf.recordOf?_of_mem nodeMem]
    · rw [if_neg isNode, restricted]
      simp [isNode]

/-- Adding records in order of path, each of a node not built yet whose parent is built or comes
earlier, builds all of them. -/
theorem foldlM_addRecord (wf : tree.WellFormed) :
    ∀ (records : List NodeRecord) (part : LiveTree) (built : List NodeId),
      part.WellFormed →
      (∀ id, part.recordOf? id = if id ∈ built then tree.recordOf? id else none) →
      (records.map (·.id)).Nodup →
      (∀ record ∈ records, record ∈ tree.records ∧ record.id ∉ built) →
      (∀ record ∈ records, record.parent ∈ built ∨
        ∃ above ∈ records, above.id = record.parent ∧ above.path < record.path) →
      records.Pairwise (fun a b => a.path ≤ b.path) →
      ∃ rebuilt, records.foldlM addRecord part = .ok rebuilt ∧ rebuilt.WellFormed ∧
        ∀ id, rebuilt.recordOf? id =
          if id ∈ records.map (·.id) ++ built then tree.recordOf? id else none
  | [], part, built, partWf, restricted, _, _, _, _ =>
    ⟨part, rfl, partWf, by simpa using restricted⟩
  | record :: rest, part, built, partWf, restricted, idsNodup, fresh, parents, sorted => by
    rw [List.pairwise_cons] at sorted
    rw [List.map_cons, List.nodup_cons] at idsNodup
    obtain ⟨recordMem, recordFresh⟩ := fresh record (List.mem_cons_self ..)
    obtain ⟨node, nodeMem, notRoot, rfl⟩ := mem_records.1 recordMem
    -- the parent cannot come at or after the node in path order, so it is built already
    have parentBuilt : node.parent ∈ built := by
      rcases parents _ (List.mem_cons_self ..) with built | ⟨above, aboveMem, -, aboveBefore⟩
      · exact built
      · rcases List.mem_cons.1 aboveMem with rfl | aboveMem
        · exact absurd aboveBefore (lt_irrefl _)
        · exact absurd aboveBefore (not_lt.2 (sorted.1 above aboveMem))
    obtain ⟨part₁, added, partWf₁, restricted₁⟩ :=
      wf.addRecord_of_parent_built partWf restricted nodeMem notRoot recordFresh parentBuilt
    have fresh₁ : ∀ record ∈ rest, record ∈ tree.records ∧ record.id ∉ node.id :: built := by
      intro other otherMem
      obtain ⟨otherRecord, otherFresh⟩ := fresh other (List.mem_cons_of_mem _ otherMem)
      refine ⟨otherRecord, ?_⟩
      rw [List.mem_cons, not_or]
      refine ⟨fun sameId => idsNodup.1 ?_, otherFresh⟩
      rw [LiveNode.toRecord_id, ← sameId]
      exact List.mem_map_of_mem otherMem
    have parents₁ : ∀ other ∈ rest, other.parent ∈ node.id :: built ∨
        ∃ above ∈ rest, above.id = other.parent ∧ above.path < other.path := by
      intro other otherMem
      rcases parents other (List.mem_cons_of_mem _ otherMem) with built | ⟨above, aboveMem, aboveId, before⟩
      · exact Or.inl (List.mem_cons_of_mem _ built)
      · rcases List.mem_cons.1 aboveMem with rfl | aboveMem
        · exact Or.inl (aboveId ▸ List.mem_cons_self ..)
        · exact Or.inr ⟨above, aboveMem, aboveId, before⟩
    obtain ⟨rebuilt, folded, rebuiltWf, rebuiltRecords⟩ :=
      foldlM_addRecord wf rest part₁ (node.id :: built) partWf₁ restricted₁ idsNodup.2 fresh₁
        parents₁ sorted.2
    refine ⟨rebuilt, by rw [List.foldlM_cons, added]; exact folded, rebuiltWf, ?_⟩
    intro id
    rw [rebuiltRecords]
    simp only [List.map_cons, List.mem_append, List.mem_cons, LiveNode.toRecord_id]
    congr 1
    exact propext (by tauto)

end WellFormed

/-- Rebuilding from the records of a well-formed tree, listed in order of path, succeeds and gives
back the tree. -/
theorem WellFormed.ofRecords_same {tree : LiveTree} (wf : tree.WellFormed)
    {records : List NodeRecord} (perm : records.Perm tree.records)
    (sorted : records.Pairwise fun a b => a.path ≤ b.path) :
    ∃ rebuilt, ofRecords records = .ok rebuilt ∧ rebuilt.WellFormed ∧ rebuilt.Same tree := by
  have idsNodup : (records.map (·.id)).Nodup := by
    refine (perm.map _).nodup_iff.2 ?_
    rw [LiveTree.records, List.map_map]
    exact (wf.idsNodup.sublist (List.filter_sublist.map _))
  have fresh : ∀ record ∈ records, record ∈ tree.records ∧ record.id ∉ [NodeId.root] := by
    intro record recordMem
    obtain ⟨node, _, notRoot, rfl⟩ := mem_records.1 (perm.subset recordMem)
    exact ⟨perm.subset recordMem, by simpa using notRoot⟩
  -- every parent is the root or a node whose record is listed, with a shorter path
  have parents : ∀ record ∈ records, record.parent ∈ [NodeId.root] ∨
      ∃ above ∈ records, above.id = record.parent ∧ above.path < record.path := by
    intro record recordMem
    obtain ⟨node, nodeMem, notRoot, rfl⟩ := mem_records.1 (perm.subset recordMem)
    obtain ⟨parent, parentMem, parentId, -, split⟩ := wf.parentMem node nodeMem notRoot
    by_cases parentRoot : parent.id = NodeId.root
    · exact Or.inl (by rw [List.mem_singleton, ← parentRoot, parentId]; rfl)
    · exact Or.inr ⟨parent.toRecord, perm.symm.subset (mem_records.2 ⟨parent, parentMem, parentRoot, rfl⟩),
        parentId, Path.split_lt split⟩
  have emptyRecords : ∀ id, LiveTree.empty.recordOf? id =
      if id ∈ [NodeId.root] then tree.recordOf? id else none := by
    intro id
    obtain ⟨rootChildren, rootMem⟩ := wf.rootMem
    by_cases isRoot : id = NodeId.root
    · subst isRoot
      have rootFound : tree.recordOf? NodeId.root = some LiveNode.root.toRecord :=
        wf.recordOf?_of_mem rootMem
      rw [if_pos (List.mem_singleton_self _), rootFound]
      rfl
    · simp [isRoot, Ne.symm isRoot, LiveTree.recordOf?, LiveTree.node?, LiveTree.empty,
        LiveNode.root]
  obtain ⟨rebuilt, folded, rebuiltWf, rebuiltRecords⟩ :=
    wf.foldlM_addRecord records LiveTree.empty [NodeId.root] WellFormed.empty emptyRecords
      idsNodup fresh parents sorted
  refine ⟨rebuilt, folded, rebuiltWf, rebuiltWf.same_of_records wf fun id => ?_⟩
  rw [rebuiltRecords]
  split
  · rfl
  · rename_i unlisted
    -- an id of the tree is the root's or that of a listed record
    symm
    apply Option.eq_none_iff_forall_ne_some.2
    intro record found
    obtain ⟨node, nodeMem, rfl, -⟩ := wf.recordOf?_eq_some_iff.1 found
    apply unlisted
    by_cases isRoot : node.id = NodeId.root
    · simp [isRoot]
    · exact List.mem_append_left _ (List.mem_map.2 ⟨node.toRecord,
        perm.symm.subset (mem_records.2 ⟨node, nodeMem, isRoot, rfl⟩), rfl⟩)

end LiveTree
end TreeHistory
