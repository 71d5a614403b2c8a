import TreeHistory.Tree.Basic
import TreeHistory.Proofs.Except
import Mathlib.Data.String.Basic
import Mathlib.Data.List.Sort

/-!
# Well-formed live trees

The representation invariant of the live tree: unique ids, the root present, the path index naming
exactly the nodes' paths, every other node under a live directory, and children listed in
ascending order of name. `create` and `drop` keep it and change the tree as little as their names
say. Most later statements go through the record view `recordOf?`.
-/

namespace TreeHistory

namespace Children

/-- Children kept in strictly ascending order of name. -/
def Sorted (children : Children) : Prop :=
  children.Pairwise fun a b => a.1 < b.1

theorem Sorted.names_nodup {children : Children} (sorted : Sorted children) :
    (children.map (·.1)).Nodup :=
  (List.pairwise_map.2 sorted).nodup

theorem Sorted.eq_of_name_eq {children : Children} (sorted : Sorted children)
    {a b : String × NodeId} (aMem : a ∈ children) (bMem : b ∈ children) (sameName : a.1 = b.1) :
    a = b :=
  List.inj_on_of_nodup_map sorted.names_nodup aMem bMem sameName

theorem find?_eq_some_iff {children : Children} (sorted : Sorted children) {name : String}
    {id : NodeId} :
    children.find? name = some id ↔ (name, id) ∈ children := by
  unfold Children.find?
  constructor
  · intro found
    obtain ⟨entry, entryFound, rfl⟩ := Option.map_eq_some_iff.1 found
    have entryName : entry.1 = name := by simpa using List.find?_some entryFound
    rw [← entryName]
    exact List.mem_of_find?_eq_some entryFound
  · intro mem
    obtain ⟨entry, entryFound⟩ : ∃ entry,
        List.find? (fun entry : String × NodeId => entry.1 == name) children = some entry :=
      Option.isSome_iff_exists.1 (List.find?_isSome.2 ⟨(name, id), mem, by simp⟩)
    have entryName : entry.1 = name := by simpa using List.find?_some entryFound
    have sameEntry : entry = (name, id) :=
      sorted.eq_of_name_eq (List.mem_of_find?_eq_some entryFound) mem entryName
    rw [entryFound, sameEntry]
    rfl

theorem find?_eq_none_iff {children : Children} {name : String} :
    children.find? name = none ↔ ∀ entry ∈ children, entry.1 ≠ name := by
  simp [find?]

theorem mem_insert {name : String} {id : NodeId} {children : Children}
    {entry : String × NodeId} :
    entry ∈ children.insert name id ↔ entry = (name, id) ∨ entry ∈ children := by
  induction children with
  | nil => simp [insert]
  | cons head tail tailHypothesis =>
      unfold insert
      split <;> simp [tailHypothesis, or_left_comm]

theorem Sorted.insert {name : String} {id : NodeId} {children : Children}
    (sorted : Sorted children) (fresh : ∀ entry ∈ children, entry.1 ≠ name) :
    Sorted (children.insert name id) := by
  induction children with
  | nil => simp [Children.insert, Sorted]
  | cons head tail tailHypothesis =>
      rw [Sorted, List.pairwise_cons] at sorted
      unfold Children.insert
      split
      · rename_i before
        rw [Sorted, List.pairwise_cons]
        refine ⟨?_, List.pairwise_cons.2 sorted⟩
        intro entry entryMem
        rcases List.mem_cons.1 entryMem with rfl | entryMem
        · exact before
        · exact lt_trans before (sorted.1 entry entryMem)
      · rename_i notBefore
        have headBefore : head.1 < name :=
          lt_of_le_of_ne (not_lt.1 notBefore) (fresh head (by simp))
        rw [Sorted, List.pairwise_cons]
        refine ⟨?_, tailHypothesis sorted.2 fun entry entryMem => fresh entry (by simp [entryMem])⟩
        intro entry entryMem
        rcases mem_insert.1 entryMem with rfl | entryMem
        · exact headBefore
        · exact sorted.1 entry entryMem

theorem mem_erase {children : Children} {name : String} {entry : String × NodeId} :
    entry ∈ children.erase name ↔ entry ∈ children ∧ entry.1 ≠ name := by
  simp [erase]

theorem Sorted.erase {children : Children} (sorted : Sorted children) (name : String) :
    Sorted (children.erase name) :=
  sorted.sublist List.filter_sublist

/-- Two sorted child lists with the same entries are the same list. -/
theorem Sorted.eq_of_mem_iff {children other : Children} (sorted : Sorted children)
    (otherSorted : Sorted other) (sameEntries : ∀ entry, entry ∈ children ↔ entry ∈ other) :
    children = other := by
  apply List.Perm.eq_of_pairwise _ sorted otherSorted
  · apply (List.perm_ext_iff_of_nodup (sorted.nodup) (otherSorted.nodup)).2 sameEntries
  · intro a b _ _ aFirst bFirst
    exact absurd (lt_trans aFirst bFirst) (lt_irrefl _)

end Children

namespace LiveTree

theorem node?_eq_some_iff {tree : LiveTree} (idsNodup : (tree.nodes.map (·.id)).Nodup)
    {id : NodeId} {node : LiveNode} :
    tree.node? id = some node ↔ node ∈ tree.nodes ∧ node.id = id := by
  unfold LiveTree.node?
  constructor
  · intro found
    exact ⟨List.mem_of_find?_eq_some found, by simpa using List.find?_some found⟩
  · rintro ⟨mem, rfl⟩
    obtain ⟨other, found⟩ : ∃ other,
        List.find? (fun other : LiveNode => other.id == node.id) tree.nodes = some other :=
      Option.isSome_iff_exists.1 (List.find?_isSome.2 ⟨node, mem, by simp⟩)
    have sameId : other.id = node.id := by simpa using List.find?_some found
    rw [found, List.inj_on_of_nodup_map idsNodup (List.mem_of_find?_eq_some found) mem sameId]

theorem node?_eq_none_iff {tree : LiveTree} {id : NodeId} :
    tree.node? id = none ↔ ∀ node ∈ tree.nodes, node.id ≠ id := by
  simp [node?]

theorem pathId?_eq_some_iff {tree : LiveTree} (pathsNodup : (tree.paths.map (·.1)).Nodup)
    {path : String} {id : NodeId} :
    tree.pathId? path = some id ↔ (path, id) ∈ tree.paths := by
  unfold LiveTree.pathId?
  constructor
  · intro found
    obtain ⟨entry, entryFound, rfl⟩ := Option.map_eq_some_iff.1 found
    have entryPath : entry.1 = path := by simpa using List.find?_some entryFound
    rw [← entryPath]
    exact List.mem_of_find?_eq_some entryFound
  · intro mem
    obtain ⟨entry, entryFound⟩ : ∃ entry,
        List.find? (fun entry : String × NodeId => entry.1 == path) tree.paths = some entry :=
      Option.isSome_iff_exists.1 (List.find?_isSome.2 ⟨(path, id), mem, by simp⟩)
    have entryPath : entry.1 = path := by simpa using List.find?_some entryFound
    have sameEntry : entry = (path, id) :=
      List.inj_on_of_nodup_map pathsNodup (List.mem_of_find?_eq_some entryFound) mem entryPath
    rw [entryFound, sameEntry]
    rfl

theorem pathId?_eq_none_iff {tree : LiveTree} {path : String} :
    tree.pathId? path = none ↔ ∀ entry ∈ tree.paths, entry.1 ≠ path := by
  simp [pathId?]

/-- The representation invariant of a live tree. -/
structure WellFormed (tree : LiveTree) : Prop where
  idsNodup : (tree.nodes.map (·.id)).Nodup
  rootMem : ∃ children, { LiveNode.root with children := children } ∈ tree.nodes
  pathsNodup : (tree.paths.map (·.1)).Nodup
  memPaths : ∀ path id, (path, id) ∈ tree.paths ↔
    ∃ node ∈ tree.nodes, node.id = id ∧ node.path = path
  parentMem : ∀ node ∈ tree.nodes, node.id ≠ NodeId.root →
    ∃ parent ∈ tree.nodes, parent.id = node.parent ∧ parent.kind = .dir ∧
      Path.split node.path = .ok (parent.path, node.name)
  childrenSorted : ∀ node ∈ tree.nodes, Children.Sorted node.children
  memChildren : ∀ node ∈ tree.nodes, ∀ entry, entry ∈ node.children ↔
    ∃ child ∈ tree.nodes, child.id ≠ NodeId.root ∧ child.parent = node.id ∧
      (child.name, child.id) = entry

theorem ne_root_of_split {path parentPath name : String}
    (split : Path.split path = .ok (parentPath, name)) : path ≠ Path.root := by
  rintro rfl
  simp [Path.split] at split

theorem get_eq_ok_iff {tree : LiveTree} {path : String} {node : LiveNode} :
    tree.get path = .ok node ↔ tree.find? path = some node := by
  unfold get
  split <;> simp_all

/-- The stored form of the node with id `id`, as a live record. -/
def recordOf? (tree : LiveTree) (id : NodeId) : Option NodeRecord :=
  (tree.node? id).map LiveNode.toRecord

theorem node?_update_children {tree : LiveTree} {id : NodeId} {change : Children → Children}
    (other : NodeId) :
    (tree.update id fun node => { node with children := change node.children }).node? other =
      (tree.node? other).map fun node =>
        { node with children := if node.id = id then change node.children else node.children } := by
  unfold update LiveTree.node?
  rw [List.find?_map]
  congr 1
  · funext node
    by_cases sameId : node.id = id <;> simp [sameId]
  · congr 1
    funext node
    by_cases sameId : node.id = id <;> simp [sameId]

/-- Changing children leaves every record of the tree as it was. -/
theorem recordOf?_update_children {tree : LiveTree} {id : NodeId} {change : Children → Children}
    (other : NodeId) :
    (tree.update id fun node => { node with children := change node.children }).recordOf? other =
      tree.recordOf? other := by
  unfold recordOf?
  rw [node?_update_children, Option.map_map]
  rfl

theorem mem_update {tree : LiveTree} {id : NodeId} {change : LiveNode → LiveNode}
    {node : LiveNode} :
    node ∈ (tree.update id change).nodes ↔
      ∃ old ∈ tree.nodes, (if old.id = id then change old else old) = node := by
  simp [update]

theorem addChild_eq_ok {tree tree' : LiveTree} {parent : NodeId} {name : String} {child : NodeId}
    (added : tree.addChild parent name child = .ok tree') :
    ∃ node, tree.node? parent = some node ∧ node.children.find? name = none ∧
      tree' = tree.update parent fun node =>
        { node with children := node.children.insert name child } := by
  unfold addChild at added
  split at added
  · cases added
  · rename_i node found
    split at added
    · cases added
    · rename_i taken
      cases added
      exact ⟨node, found, by simpa using taken, rfl⟩

theorem removeChild_eq_ok {tree tree' : LiveTree} {parent : NodeId} {name : String}
    {child : NodeId} (removed : tree.removeChild parent name = .ok (tree', child)) :
    ∃ node, tree.node? parent = some node ∧ node.children.find? name = some child ∧
      tree' = tree.update parent fun node => { node with children := node.children.erase name } := by
  unfold removeChild at removed
  split at removed
  · cases removed
  · rename_i node found
    split at removed
    · cases removed
    · rename_i listed
      cases removed
      exact ⟨node, found, listed, rfl⟩

/-- The node `create` adds for `new` under `parent`, called `name`. -/
def createdNode (new : NewNode) (parent : NodeId) (name : String) : LiveNode :=
  { id := new.id, revMin := new.revMin, parent := parent, name := name, path := new.path,
    kind := new.kind, predecessor := new.predecessor, children := [] }

/-- What a successful `create` checked and built: the id was free, the path splits into a live
directory and a name, and the node is appended under that directory. -/
theorem create_eq_ok {tree : LiveTree} {new : NewNode} {result : LiveTree × LiveNode}
    (created : tree.create new = .ok result) :
    ∃ parentPath name parent tree₁,
      tree.node? new.id = none ∧ Path.split new.path = .ok (parentPath, name) ∧
      tree.find? parentPath = some parent ∧ parent.kind = .dir ∧
      tree.addChild parent.id name new.id = .ok tree₁ ∧
      result = ({ nodes := tree₁.nodes ++ [createdNode new parent.id name],
                  paths := (new.path, new.id) :: tree₁.paths.filter (·.1 != new.path) },
                createdNode new parent.id name) := by
  unfold create at created
  cases fresh : (tree.node? new.id).isSome <;> simp only [fresh] at created
  · cases split : Path.split new.path with
    | error e => simp [split, bind, Except.bind] at created
    | ok pair =>
      obtain ⟨parentPath, name⟩ := pair
      cases found : tree.get parentPath with
      | error e => simp [split, found, bind, Except.bind] at created
      | ok parent =>
        cases dir : parent.kind.isDir <;>
          simp [split, found, dir, bind, Except.bind] at created
        cases added : tree.addChild parent.id name new.id with
        | error e => simp [added] at created
        | ok tree₁ =>
          simp only [added, pure, Except.pure, Except.ok.injEq] at created
          refine ⟨parentPath, name, parent, tree₁, Option.not_isSome_iff_eq_none.1 (by simp [fresh]),
            rfl, get_eq_ok_iff.1 found, by simpa [NodeKind.isDir] using dir, added, ?_⟩
          rw [← created]
          rfl
  · simp [throw, throwThe, MonadExceptOf.throw, bind, Except.bind] at created

/-- What a successful `drop` checked and removed: a live node other than the root, with no
children, taken out of its parent's children, the arena and the path index. -/
theorem drop_eq_ok {tree : LiveTree} {path : String} {result : LiveTree × LiveNode}
    (dropped : tree.drop path = .ok result) :
    ∃ node tree₁ child, tree.find? path = some node ∧ node.id ≠ NodeId.root ∧
      node.children = [] ∧ tree.removeChild node.parent node.name = .ok (tree₁, child) ∧
      result = ({ nodes := tree₁.nodes.filter (·.id != node.id),
                  paths := tree₁.paths.filter (·.1 != path) }, node) := by
  unfold drop at dropped
  cases found : tree.get path with
  | error e => simp [found, bind, Except.bind] at dropped
  | ok node =>
    cases root : node.isRoot <;> simp [found, root, bind, Except.bind, throw, throwThe,
      MonadExceptOf.throw] at dropped
    cases leaf : node.children with
    | cons entry rest => simp [leaf] at dropped
    | nil =>
      cases removed : tree.removeChild node.parent node.name with
      | error e => simp [leaf, removed] at dropped
      | ok pair =>
        obtain ⟨tree₁, child⟩ := pair
        simp only [leaf, removed, List.length_nil, Nat.lt_irrefl, if_false, pure, Except.pure,
          Except.ok.injEq] at dropped
        refine ⟨node, tree₁, child, get_eq_ok_iff.1 found, ?_, leaf, removed, dropped.symm⟩
        simpa [LiveNode.isRoot] using root

theorem update_children_ids {tree : LiveTree} {id : NodeId} {change : Children → Children} :
    (tree.update id fun node => { node with children := change node.children }).nodes.map (·.id) =
      tree.nodes.map (·.id) := by
  simp only [update, List.map_map]
  congr 1
  funext node
  by_cases sameId : node.id = id <;> simp [sameId]

/-- A change of the children of the node with id `id`. -/
theorem mem_update_children {tree : LiveTree} {id : NodeId} {change : Children → Children}
    {node : LiveNode} :
    node ∈ (tree.update id fun node => { node with children := change node.children }).nodes ↔
      ∃ old ∈ tree.nodes,
        node = { old with children := if old.id = id then change old.children else old.children } := by
  rw [mem_update]
  constructor
  · rintro ⟨old, oldMem, rfl⟩
    exact ⟨old, oldMem, by split <;> rfl⟩
  · rintro ⟨old, oldMem, rfl⟩
    exact ⟨old, oldMem, by split <;> rfl⟩

namespace WellFormed

variable {tree : LiveTree}

theorem node?_eq_some_iff (wf : tree.WellFormed) {id : NodeId} {node : LiveNode} :
    tree.node? id = some node ↔ node ∈ tree.nodes ∧ node.id = id :=
  LiveTree.node?_eq_some_iff wf.idsNodup

theorem eq_of_id_eq (wf : tree.WellFormed) {node other : LiveNode} (nodeMem : node ∈ tree.nodes)
    (otherMem : other ∈ tree.nodes) (sameId : node.id = other.id) : node = other :=
  List.inj_on_of_nodup_map wf.idsNodup nodeMem otherMem sameId

theorem eq_of_path_eq (wf : tree.WellFormed) {node other : LiveNode} (nodeMem : node ∈ tree.nodes)
    (otherMem : other ∈ tree.nodes) (samePath : node.path = other.path) : node = other := by
  have nodeEntry := (wf.memPaths node.path node.id).2 ⟨node, nodeMem, rfl, rfl⟩
  have otherEntry := (wf.memPaths node.path other.id).2 ⟨other, otherMem, rfl, samePath.symm⟩
  have sameId : node.id = other.id := by
    simpa using List.inj_on_of_nodup_map wf.pathsNodup nodeEntry otherEntry rfl
  exact wf.eq_of_id_eq nodeMem otherMem sameId

theorem pathId?_eq_some_iff (wf : tree.WellFormed) {path : String} {id : NodeId} :
    tree.pathId? path = some id ↔ ∃ node ∈ tree.nodes, node.id = id ∧ node.path = path := by
  rw [LiveTree.pathId?_eq_some_iff wf.pathsNodup, wf.memPaths]

theorem find?_eq_some_iff (wf : tree.WellFormed) {path : String} {node : LiveNode} :
    tree.find? path = some node ↔ node ∈ tree.nodes ∧ node.path = path := by
  unfold LiveTree.find?
  rw [Option.bind_eq_some_iff]
  constructor
  · rintro ⟨id, idFound, nodeFound⟩
    obtain ⟨other, otherMem, rfl, otherPath⟩ := wf.pathId?_eq_some_iff.1 idFound
    obtain ⟨nodeMem, sameId⟩ := wf.node?_eq_some_iff.1 nodeFound
    rw [wf.eq_of_id_eq nodeMem otherMem sameId]
    exact ⟨otherMem, otherPath⟩
  · rintro ⟨nodeMem, rfl⟩
    exact ⟨node.id, wf.pathId?_eq_some_iff.2 ⟨node, nodeMem, rfl, rfl⟩,
      wf.node?_eq_some_iff.2 ⟨nodeMem, rfl⟩⟩

theorem find?_eq_none_iff (wf : tree.WellFormed) {path : String} :
    tree.find? path = none ↔ ∀ node ∈ tree.nodes, node.path ≠ path := by
  rw [Option.eq_none_iff_forall_ne_some]
  constructor
  · intro absent node nodeMem samePath
    exact absent node (wf.find?_eq_some_iff.2 ⟨nodeMem, samePath⟩)
  · intro absent node found
    obtain ⟨nodeMem, samePath⟩ := wf.find?_eq_some_iff.1 found
    exact absent node nodeMem samePath

theorem empty : (empty : LiveTree).WellFormed where
  idsNodup := by simp [LiveTree.empty]
  rootMem := ⟨[], by simp [LiveTree.empty, LiveNode.root]⟩
  pathsNodup := by simp [LiveTree.empty]
  memPaths := by
    intro path id
    simp only [LiveTree.empty, List.mem_singleton, Prod.mk.injEq, exists_eq_left]
    constructor
    · rintro ⟨rfl, rfl⟩
      exact ⟨rfl, rfl⟩
    · rintro ⟨rfl, rfl⟩
      exact ⟨rfl, rfl⟩
  parentMem := by simp [LiveTree.empty, LiveNode.root, NodeId.root]
  childrenSorted := by simp [LiveTree.empty, LiveNode.root, Children.Sorted]
  memChildren := by simp [LiveTree.empty, LiveNode.root]

/-- No node has the path `create` is asked for once the name is free under its parent. -/
theorem path_ne_of_name_free (wf : tree.WellFormed) {parent : LiveNode} {path name : String}
    (parentMem : parent ∈ tree.nodes) (split : Path.split path = .ok (parent.path, name))
    (nameFree : ∀ entry ∈ parent.children, entry.1 ≠ name) :
    ∀ node ∈ tree.nodes, node.path ≠ path := by
  intro node nodeMem samePath
  obtain ⟨rootChildren, rootMem⟩ := wf.rootMem
  have notRoot : node.id ≠ NodeId.root := by
    intro isRoot
    have sameNode := wf.eq_of_id_eq nodeMem rootMem isRoot
    rw [sameNode] at samePath
    exact ne_root_of_split split samePath.symm
  obtain ⟨above, aboveMem, aboveId, -, aboveSplit⟩ := wf.parentMem node nodeMem notRoot
  rw [samePath, split, Except.ok.injEq, Prod.mk.injEq] at aboveSplit
  have sameParent := wf.eq_of_path_eq parentMem aboveMem aboveSplit.1
  have listed := (wf.memChildren parent parentMem (node.name, node.id)).2
    ⟨node, nodeMem, notRoot, by rw [sameParent, aboveId], rfl⟩
  exact nameFree _ listed aboveSplit.2.symm

end WellFormed

/-- The tree with `new` added under `parent` as `name`: the parent lists it among its children,
the arena ends with it, and the path index names it. -/
def withCreated (tree : LiveTree) (new : NewNode) (parent : LiveNode) (name : String) :
    LiveTree :=
  { nodes := (tree.update parent.id fun node =>
        { node with children := node.children.insert name new.id }).nodes ++
      [createdNode new parent.id name],
    paths := (new.path, new.id) ::
      (tree.update parent.id fun node =>
        { node with children := node.children.insert name new.id }).paths.filter (·.1 != new.path) }

theorem mem_withCreated {tree : LiveTree} {new : NewNode} {parent : LiveNode} {name : String}
    {node : LiveNode} :
    node ∈ (tree.withCreated new parent name).nodes ↔ node = createdNode new parent.id name ∨
      ∃ old ∈ tree.nodes, node = { old with children :=
        if old.id = parent.id then old.children.insert name new.id else old.children } := by
  rw [withCreated, List.mem_append, mem_update_children, List.mem_singleton, or_comm]

namespace WellFormed

variable {tree : LiveTree}

/-- Adding a fresh id under a live directory, at a free name, keeps the tree well-formed. -/
theorem withCreated (wf : tree.WellFormed) {new : NewNode} {parent : LiveNode} {name : String}
    (parentMem : parent ∈ tree.nodes) (parentDir : parent.kind = .dir)
    (split : Path.split new.path = .ok (parent.path, name))
    (freshId : ∀ node ∈ tree.nodes, node.id ≠ new.id)
    (nameFree : ∀ entry ∈ parent.children, entry.1 ≠ name) :
    (tree.withCreated new parent name).WellFormed := by
  have pathFree := wf.path_ne_of_name_free parentMem split nameFree
  obtain ⟨rootChildren, rootMem⟩ := wf.rootMem
  have newNotRoot : new.id ≠ NodeId.root := (freshId _ rootMem).symm
  constructor
  case idsNodup =>
    rw [LiveTree.withCreated, List.map_append, update_children_ids, List.nodup_append]
    refine ⟨wf.idsNodup, List.nodup_singleton _, ?_⟩
    simp only [List.map_cons, List.map_nil, List.mem_singleton, List.mem_map]
    rintro _ ⟨node, nodeMem, rfl⟩ _ rfl
    exact freshId node nodeMem
  case rootMem =>
    refine ⟨if NodeId.root = parent.id then rootChildren.insert name new.id else rootChildren, ?_⟩
    rw [mem_withCreated]
    exact .inr ⟨_, rootMem, rfl⟩
  case pathsNodup =>
    simp only [LiveTree.withCreated, update, List.map_cons, List.nodup_cons, List.mem_map,
      List.mem_filter]
    refine ⟨?_, ?_⟩
    · rintro ⟨entry, ⟨-, different⟩, samePath⟩
      simp [samePath] at different
    · exact wf.pathsNodup.sublist (List.filter_sublist.map _)
  case memPaths =>
    intro path id
    simp only [LiveTree.withCreated, update, List.mem_cons, List.mem_filter, bne_iff_ne, ne_eq,
      Prod.mk.injEq]
    rw [wf.memPaths]
    constructor
    · rintro (⟨rfl, rfl⟩ | ⟨⟨old, oldMem, rfl, rfl⟩, -⟩)
      · exact ⟨createdNode new parent.id name, mem_withCreated.2 (.inl rfl), rfl, rfl⟩
      · exact ⟨_, mem_withCreated.2 (.inr ⟨old, oldMem, rfl⟩), rfl, rfl⟩
    · rintro ⟨node, nodeMem, rfl, rfl⟩
      rcases mem_withCreated.1 nodeMem with rfl | ⟨old, oldMem, rfl⟩
      · exact .inl ⟨rfl, rfl⟩
      · exact .inr ⟨⟨old, oldMem, rfl, rfl⟩, pathFree old oldMem⟩
  case parentMem =>
    intro node nodeMem notRoot
    rcases mem_withCreated.1 nodeMem with rfl | ⟨old, oldMem, rfl⟩
    · exact ⟨_, mem_withCreated.2 (.inr ⟨parent, parentMem, rfl⟩), rfl, parentDir, split⟩
    · obtain ⟨above, aboveMem, aboveId, aboveDir, aboveSplit⟩ := wf.parentMem old oldMem notRoot
      exact ⟨_, mem_withCreated.2 (.inr ⟨above, aboveMem, rfl⟩), aboveId, aboveDir, aboveSplit⟩
  case childrenSorted =>
    intro node nodeMem
    rcases mem_withCreated.1 nodeMem with rfl | ⟨old, oldMem, rfl⟩
    · exact List.Pairwise.nil
    · dsimp only
      split
      · rename_i isParent
        have sameNode := wf.eq_of_id_eq oldMem parentMem isParent
        subst sameNode
        exact (wf.childrenSorted old oldMem).insert nameFree
      · exact wf.childrenSorted old oldMem
  case memChildren =>
    intro node nodeMem entry
    -- The children of a node of the new tree: the added node sits under `parent` only.
    have childrenOf : ∀ id, (∃ child ∈ (tree.withCreated new parent name).nodes,
        child.id ≠ NodeId.root ∧ child.parent = id ∧ (child.name, child.id) = entry) ↔
        (parent.id = id ∧ (name, new.id) = entry) ∨
          ∃ child ∈ tree.nodes, child.id ≠ NodeId.root ∧ child.parent = id ∧
            (child.name, child.id) = entry := by
      intro id
      constructor
      · rintro ⟨child, childMem, notRoot, childParent, rfl⟩
        rcases mem_withCreated.1 childMem with rfl | ⟨old, oldMem, rfl⟩
        · exact .inl ⟨childParent, rfl⟩
        · exact .inr ⟨old, oldMem, notRoot, childParent, rfl⟩
      · rintro (⟨rfl, rfl⟩ | ⟨old, oldMem, notRoot, rfl, rfl⟩)
        · exact ⟨_, mem_withCreated.2 (.inl rfl), newNotRoot, rfl, rfl⟩
        · exact ⟨_, mem_withCreated.2 (.inr ⟨old, oldMem, rfl⟩), notRoot, rfl, rfl⟩
    rcases mem_withCreated.1 nodeMem with rfl | ⟨old, oldMem, rfl⟩
    · rw [childrenOf]
      simp only [createdNode, List.not_mem_nil, false_iff, not_or, not_and, not_exists]
      refine ⟨fun sameId => absurd sameId (freshId parent parentMem), ?_⟩
      intro child childMem notRoot childParent _
      obtain ⟨above, aboveMem, aboveId, -⟩ := wf.parentMem child childMem notRoot
      exact freshId above aboveMem (aboveId.trans childParent)
    · rw [childrenOf]
      dsimp only
      split
      · rename_i isParent
        rw [Children.mem_insert, wf.memChildren old oldMem, isParent]
        simp only [true_and, eq_comm]
      · rename_i notParent
        rw [wf.memChildren old oldMem]
        simp only [Ne.symm notParent, false_and, false_or]

/-- What `create` did on a well-formed tree: it added `new` under a live directory, at a free
name. -/
theorem create_eq_withCreated (wf : tree.WellFormed) {new : NewNode}
    {result : LiveTree × LiveNode} (created : tree.create new = .ok result) :
    ∃ parent name, parent ∈ tree.nodes ∧ parent.kind = .dir ∧
      Path.split new.path = .ok (parent.path, name) ∧ (∀ node ∈ tree.nodes, node.id ≠ new.id) ∧
      (∀ entry ∈ parent.children, entry.1 ≠ name) ∧
      result = (tree.withCreated new parent name, createdNode new parent.id name) := by
  obtain ⟨parentPath, name, parent, tree₁, fresh, split, found, parentDir, added, rfl⟩ :=
    create_eq_ok created
  obtain ⟨parentMem, rfl⟩ := wf.find?_eq_some_iff.1 found
  obtain ⟨listed, listedFound, nameFree, rfl⟩ := addChild_eq_ok added
  obtain ⟨listedMem, listedId⟩ := wf.node?_eq_some_iff.1 listedFound
  have sameNode := wf.eq_of_id_eq listedMem parentMem listedId
  subst sameNode
  exact ⟨listed, name, parentMem, parentDir, split, node?_eq_none_iff.1 fresh,
    Children.find?_eq_none_iff.1 nameFree, rfl⟩

/-- `create` succeeds when the id is free, the path splits into a live directory and a name, and
the name is free there. -/
theorem create_eq_withCreated_of (wf : tree.WellFormed) {new : NewNode} {parent : LiveNode}
    {name : String} (parentMem : parent ∈ tree.nodes) (parentDir : parent.kind = .dir)
    (split : Path.split new.path = .ok (parent.path, name))
    (freshId : ∀ node ∈ tree.nodes, node.id ≠ new.id)
    (nameFree : ∀ entry ∈ parent.children, entry.1 ≠ name) :
    tree.create new = .ok (tree.withCreated new parent name, createdNode new parent.id name) := by
  have absent : tree.node? new.id = none := node?_eq_none_iff.2 freshId
  have found : tree.get parent.path = .ok parent :=
    get_eq_ok_iff.2 (wf.find?_eq_some_iff.2 ⟨parentMem, rfl⟩)
  have added : tree.addChild parent.id name new.id = .ok (tree.update parent.id fun node =>
      { node with children := node.children.insert name new.id }) := by
    have listed : tree.node? parent.id = some parent := wf.node?_eq_some_iff.2 ⟨parentMem, rfl⟩
    have free : parent.children.find? name = none := Children.find?_eq_none_iff.2 nameFree
    simp [addChild, listed, free]
  simp [create, absent, split, found, parentDir, NodeKind.isDir, added, bind, Except.bind,
    pure, Except.pure, LiveTree.withCreated, createdNode]

theorem create (wf : tree.WellFormed) {new : NewNode} {result : LiveTree × LiveNode}
    (created : tree.create new = .ok result) : result.1.WellFormed := by
  obtain ⟨parent, name, parentMem, parentDir, split, freshId, nameFree, rfl⟩ :=
    wf.create_eq_withCreated created
  exact wf.withCreated parentMem parentDir split freshId nameFree

end WellFormed

theorem recordOf?_withCreated {tree : LiveTree} {new : NewNode} {parent : LiveNode}
    {name : String} (freshId : ∀ node ∈ tree.nodes, node.id ≠ new.id) (id : NodeId) :
    (tree.withCreated new parent name).recordOf? id =
      if id = new.id then some (createdNode new parent.id name).toRecord else tree.recordOf? id := by
  have updated := @recordOf?_update_children tree parent.id (Children.insert name new.id) id
  unfold recordOf? LiveTree.node? at updated ⊢
  unfold withCreated
  rw [List.find?_append, Option.map_or, updated]
  split
  · rename_i isNew
    subst isNew
    have absent : tree.nodes.find? (fun node => node.id == new.id) = none :=
      node?_eq_none_iff.2 freshId
    simp [absent, createdNode]
  · rename_i notNew
    simp [createdNode, Ne.symm notNew]

/-- The tree with the childless `node` dropped: its parent no longer lists it, and it leaves the
arena and the path index. -/
def withDropped (tree : LiveTree) (node : LiveNode) : LiveTree :=
  { nodes := (tree.update node.parent fun parent =>
        { parent with children := parent.children.erase node.name }).nodes.filter (·.id != node.id),
    paths := tree.paths.filter (·.1 != node.path) }

@[simp] theorem paths_withDropped {tree : LiveTree} {node : LiveNode} :
    (tree.withDropped node).paths = tree.paths.filter (·.1 != node.path) := rfl

theorem mem_withDropped {tree : LiveTree} {node other : LiveNode} :
    other ∈ (tree.withDropped node).nodes ↔ ∃ old ∈ tree.nodes, old.id ≠ node.id ∧
      other = { old with children :=
        if old.id = node.parent then old.children.erase node.name else old.children } := by
  rw [withDropped, List.mem_filter,
    @mem_update_children tree node.parent (fun children => children.erase node.name) other]
  constructor
  · rintro ⟨⟨old, oldMem, rfl⟩, kept⟩
    exact ⟨old, oldMem, by simpa using kept, rfl⟩
  · rintro ⟨old, oldMem, kept, rfl⟩
    exact ⟨⟨old, oldMem, rfl⟩, by simpa using kept⟩

theorem recordOf?_withDropped {tree : LiveTree} {node : LiveNode} (id : NodeId) :
    (tree.withDropped node).recordOf? id = if id = node.id then none else tree.recordOf? id := by
  have updated := @recordOf?_update_children tree node.parent
    (fun children => children.erase node.name) id
  unfold recordOf? LiveTree.node? at updated ⊢
  unfold withDropped
  rw [List.find?_filter]
  split
  · rename_i isDropped
    subst isDropped
    simp
  · rename_i notDropped
    -- Off the dropped node, the filter's test is implied by the lookup's.
    have sameTest : (fun other : LiveNode =>
        decide ((other.id != node.id) = true ∧ (other.id == id) = true)) = fun other => other.id == id := by
      funext other
      by_cases sameId : other.id = id
      · simp [sameId, notDropped]
      · simp [sameId]
    rw [sameTest]
    exact updated

namespace WellFormed

variable {tree : LiveTree}

/-- A node with no children is no node's parent. -/
theorem parent_ne_of_leaf (wf : tree.WellFormed) {node : LiveNode} (nodeMem : node ∈ tree.nodes)
    (leaf : node.children = []) :
    ∀ other ∈ tree.nodes, other.id ≠ NodeId.root → other.parent ≠ node.id := by
  intro other otherMem notRoot sameParent
  have listed := (wf.memChildren node nodeMem (other.name, other.id)).2
    ⟨other, otherMem, notRoot, sameParent, rfl⟩
  simp [leaf] at listed

/-- Dropping a childless node other than the root keeps the tree well-formed. -/
theorem withDropped (wf : tree.WellFormed) {node : LiveNode} (nodeMem : node ∈ tree.nodes)
    (notRoot : node.id ≠ NodeId.root) (leaf : node.children = []) :
    (tree.withDropped node).WellFormed := by
  have noChild := wf.parent_ne_of_leaf nodeMem leaf
  obtain ⟨parent, parentMem, parentId, -, -⟩ := wf.parentMem node nodeMem notRoot
  obtain ⟨rootChildren, rootMem⟩ := wf.rootMem
  constructor
  case idsNodup =>
    refine List.Nodup.sublist ?_ wf.idsNodup
    rw [← @update_children_ids tree node.parent (fun children => children.erase node.name)]
    exact List.filter_sublist.map _
  case rootMem =>
    refine ⟨if NodeId.root = node.parent then rootChildren.erase node.name else rootChildren, ?_⟩
    exact mem_withDropped.2 ⟨_, rootMem, Ne.symm notRoot, rfl⟩
  case pathsNodup =>
    exact List.Nodup.sublist (List.filter_sublist.map _) wf.pathsNodup
  case memPaths =>
    intro path id
    simp only [paths_withDropped, List.mem_filter, bne_iff_ne, ne_eq]
    rw [wf.memPaths]
    constructor
    · rintro ⟨⟨old, oldMem, rfl, rfl⟩, otherPath⟩
      have otherId : old.id ≠ node.id := fun sameId =>
        otherPath (congrArg LiveNode.path (wf.eq_of_id_eq oldMem nodeMem sameId))
      exact ⟨_, mem_withDropped.2 ⟨old, oldMem, otherId, rfl⟩, rfl, rfl⟩
    · rintro ⟨other, otherMem, rfl, rfl⟩
      obtain ⟨old, oldMem, otherId, rfl⟩ := mem_withDropped.1 otherMem
      exact ⟨⟨old, oldMem, rfl, rfl⟩, fun samePath =>
        otherId (congrArg LiveNode.id (wf.eq_of_path_eq oldMem nodeMem samePath))⟩
  case parentMem =>
    intro other otherMem otherNotRoot
    obtain ⟨old, oldMem, otherId, rfl⟩ := mem_withDropped.1 otherMem
    obtain ⟨above, aboveMem, aboveId, aboveDir, aboveSplit⟩ :=
      wf.parentMem old oldMem otherNotRoot
    have aboveKept : above.id ≠ node.id := by
      rw [aboveId]
      exact noChild old oldMem otherNotRoot
    exact ⟨_, mem_withDropped.2 ⟨above, aboveMem, aboveKept, rfl⟩, aboveId, aboveDir, aboveSplit⟩
  case childrenSorted =>
    intro other otherMem
    obtain ⟨old, oldMem, -, rfl⟩ := mem_withDropped.1 otherMem
    dsimp only
    split
    · exact (wf.childrenSorted old oldMem).erase _
    · exact wf.childrenSorted old oldMem
  case memChildren =>
    intro other otherMem entry
    obtain ⟨old, oldMem, otherId, rfl⟩ := mem_withDropped.1 otherMem
    -- A child of `old` in the new tree is a child of `old` in the old tree other than `node`.
    have childrenOf : (∃ child ∈ (tree.withDropped node).nodes, child.id ≠ NodeId.root ∧
        child.parent = old.id ∧ (child.name, child.id) = entry) ↔
        ∃ child ∈ tree.nodes, child.id ≠ node.id ∧ child.id ≠ NodeId.root ∧
          child.parent = old.id ∧ (child.name, child.id) = entry := by
      constructor
      · rintro ⟨child, childMem, childNotRoot, childParent, rfl⟩
        obtain ⟨prior, priorMem, priorId, rfl⟩ := mem_withDropped.1 childMem
        exact ⟨prior, priorMem, priorId, childNotRoot, childParent, rfl⟩
      · rintro ⟨prior, priorMem, priorId, priorNotRoot, priorParent, rfl⟩
        exact ⟨_, mem_withDropped.2 ⟨prior, priorMem, priorId, rfl⟩, priorNotRoot, priorParent,
          rfl⟩
    rw [childrenOf]
    dsimp only
    split
    · rename_i isParent
      have sameParent := wf.eq_of_id_eq oldMem parentMem (isParent.trans parentId.symm)
      subst sameParent
      have nodeListed := (wf.memChildren old oldMem (node.name, node.id)).2
        ⟨node, nodeMem, notRoot, isParent.symm, rfl⟩
      rw [Children.mem_erase, wf.memChildren old oldMem]
      constructor
      · rintro ⟨⟨child, childMem, childNotRoot, childParent, rfl⟩, otherName⟩
        refine ⟨child, childMem, fun sameId => otherName ?_, childNotRoot, childParent, rfl⟩
        rw [wf.eq_of_id_eq childMem nodeMem sameId]
      · rintro ⟨child, childMem, childId, childNotRoot, childParent, rfl⟩
        refine ⟨⟨child, childMem, childNotRoot, childParent, rfl⟩, fun sameName => childId ?_⟩
        have childListed := (wf.memChildren old oldMem (child.name, child.id)).2
          ⟨child, childMem, childNotRoot, childParent, rfl⟩
        exact congrArg Prod.snd
          ((wf.childrenSorted old oldMem).eq_of_name_eq childListed nodeListed sameName)
    · rename_i notParent
      rw [wf.memChildren old oldMem]
      constructor
      · rintro ⟨child, childMem, childNotRoot, childParent, rfl⟩
        refine ⟨child, childMem, fun sameId => notParent ?_, childNotRoot, childParent, rfl⟩
        rw [← childParent, wf.eq_of_id_eq childMem nodeMem sameId]
      · rintro ⟨child, childMem, -, childNotRoot, childParent, rfl⟩
        exact ⟨child, childMem, childNotRoot, childParent, rfl⟩

/-- What `drop` did on a well-formed tree: it dropped the childless, non-root node at `path`. -/
theorem drop_eq_withDropped (wf : tree.WellFormed) {path : String} {result : LiveTree × LiveNode}
    (dropped : tree.drop path = .ok result) :
    ∃ node ∈ tree.nodes, node.path = path ∧ node.id ≠ NodeId.root ∧ node.children = [] ∧
      result = (tree.withDropped node, node) := by
  obtain ⟨node, tree₁, child, found, notRoot, leaf, removed, rfl⟩ := drop_eq_ok dropped
  obtain ⟨nodeMem, rfl⟩ := wf.find?_eq_some_iff.1 found
  obtain ⟨parent, -, -, rfl⟩ := removeChild_eq_ok removed
  exact ⟨node, nodeMem, rfl, notRoot, leaf, rfl⟩

theorem drop (wf : tree.WellFormed) {path : String} {result : LiveTree × LiveNode}
    (dropped : tree.drop path = .ok result) : result.1.WellFormed := by
  obtain ⟨node, nodeMem, -, notRoot, leaf, rfl⟩ := wf.drop_eq_withDropped dropped
  exact wf.withDropped nodeMem notRoot leaf

end WellFormed

end LiveTree
end TreeHistory
