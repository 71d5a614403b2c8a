import TreeHistory.Proofs.Path.Canonical

/-!
# The live tree under any edits

The live tree changes through `create` and `drop`. Starting from the empty tree, or a successful
rebuild out of records, and making any sequence of such calls with any ids and paths, whatever
their outcomes, the tree stays `Consistent`: the root is present, every other node sits under a
present directory that lists it by name at the path its parent's path and name give, the path
index names exactly the present nodes, and following parents reaches the root
(`edits_keep_tree_consistent`). A call fails only at the checks it makes before it changes
anything (`WellFormed.create_eq_error`, `WellFormed.drop_eq_error`). All of it follows from
`WellFormed`, which each call keeps.
-/

namespace TreeHistory
namespace LiveTree

/-! ## Edits -/

/-- A call that changes the live tree. -/
inductive Edit where
  | create (new : NewNode)
  | drop (path : String)
  deriving DecidableEq, Repr

/-- Makes an edit; a failed edit leaves the tree as it was. -/
def edit (tree : LiveTree) : Edit → LiveTree
  | .create new =>
    match tree.create new with
    | .ok (created, _) => created
    | .error _ => tree
  | .drop path =>
    match tree.drop path with
    | .ok (dropped, _) => dropped
    | .error _ => tree

/-- Makes the edits in order. -/
def editAll (tree : LiveTree) (edits : List Edit) : LiveTree :=
  edits.foldl edit tree

/-- Following parents from the node with id `id` reaches the root. -/
inductive ReachesRoot (tree : LiveTree) : NodeId → Prop
  | root : ReachesRoot tree NodeId.root
  | parent {node : LiveNode} : node ∈ tree.nodes → ReachesRoot tree node.parent →
      ReachesRoot tree node.id

/-- What a live tree keeps under every edit, stated through the lookups its callers make. -/
structure Consistent (tree : LiveTree) : Prop where
  /-- The root is present: id `0`, path `/`, an empty name, a directory, its own parent. -/
  root : ∃ root, tree.node? NodeId.root = some root ∧ root.path = Path.root ∧ root.name = "" ∧
    root.kind = .dir ∧ root.parent = NodeId.root
  /-- Every other node's parent is present, is a directory, and lists the node under its name. -/
  parent : ∀ node ∈ tree.nodes, node.id ≠ NodeId.root → ∃ parent,
    tree.node? node.parent = some parent ∧ parent.kind = .dir ∧
      parent.children.find? node.name = some node.id
  /-- Every child a node lists is present, with that node as parent and that name. -/
  children : ∀ node ∈ tree.nodes, ∀ entry ∈ node.children, ∃ child,
    tree.node? entry.2 = some child ∧ child.parent = node.id ∧ child.name = entry.1
  /-- The path index names exactly the present nodes, each by its path, ... -/
  index : ∀ path id, tree.pathId? path = some id ↔
    ∃ node ∈ tree.nodes, node.id = id ∧ node.path = path
  /-- ... and no two nodes share a path. -/
  pathsDistinct : ∀ node ∈ tree.nodes, ∀ other ∈ tree.nodes, node.path = other.path → node = other
  /-- Every other node's path splits into its parent's path and its name. -/
  split : ∀ node ∈ tree.nodes, node.id ≠ NodeId.root → ∃ parent,
    tree.node? node.parent = some parent ∧ Path.split node.path = .ok (parent.path, node.name)
  /-- Following parents from any node reaches the root. -/
  reachesRoot : ∀ node ∈ tree.nodes, tree.ReachesRoot node.id

/-! ## Invariants every edit keeps -/

/-- A property of trees that every successful `create` at an allowed path and every `drop`
keep. -/
structure Kept (allowed : String → Prop) (P : LiveTree → Prop) : Prop where
  create {tree : LiveTree} {new : NewNode} {result : LiveTree × LiveNode} :
    tree.WellFormed → P tree → allowed new.path → tree.create new = .ok result → P result.1
  drop {tree : LiveTree} {path : String} {result : LiveTree × LiveNode} :
    tree.WellFormed → P tree → tree.drop path = .ok result → P result.1

/-- The edit creates a node only at an allowed path. -/
def Edit.Allowed (allowed : String → Prop) : Edit → Prop
  | .create new => allowed new.path
  | .drop _ => True

theorem Edit.Allowed.imp {allowed allowed' : String → Prop}
    (weaker : ∀ path, allowed path → allowed' path) {e : Edit} (fits : e.Allowed allowed) :
    e.Allowed allowed' := by
  cases e with
  | create new => exact weaker new.path fits
  | drop path => trivial

namespace Kept

variable {allowed : String → Prop} {P : LiveTree → Prop} (kept : Kept allowed P)
include kept

/-- One edit keeps the property, whether it succeeds or fails. -/
theorem edit {tree : LiveTree} (wf : tree.WellFormed) (holds : P tree) {e : Edit}
    (fits : e.Allowed allowed) : P (tree.edit e) := by
  cases e with
  | create new =>
    cases created : tree.create new with
    | ok result => simpa [LiveTree.edit, created] using kept.create wf holds fits created
    | error _ => simpa [LiveTree.edit, created] using holds
  | drop path =>
    cases dropped : tree.drop path with
    | ok result => simpa [LiveTree.edit, dropped] using kept.drop wf holds dropped
    | error _ => simpa [LiveTree.edit, dropped] using holds

/-- Adding a record at an allowed path keeps the property. -/
theorem addRecord {tree tree' : LiveTree} (wf : tree.WellFormed) (holds : P tree)
    {record : NodeRecord} (fits : allowed record.path) (added : tree.addRecord record = .ok tree') :
    P tree' := by
  unfold LiveTree.addRecord at added
  cases created : tree.create
      { id := record.id, revMin := record.revMin, path := record.path, kind := record.kind,
        predecessor := record.predecessor } with
  | error e => simp [created, bind, Except.bind] at added
  | ok result =>
    simp only [created, bind, Except.bind] at added
    split at added
    · simp [throw, throwThe, MonadExceptOf.throw] at added
    · cases added
      exact kept.create wf holds fits created

end Kept

theorem wellFormed_kept : Kept (fun _ => True) WellFormed where
  create wf _ _ created := wf.create created
  drop wf _ dropped := wf.drop dropped

theorem WellFormed.edit {tree : LiveTree} (wf : tree.WellFormed) (e : Edit) :
    (tree.edit e).WellFormed :=
  wellFormed_kept.edit wf wf (by cases e <;> trivial)

theorem WellFormed.addRecord {tree tree' : LiveTree} (wf : tree.WellFormed) {record : NodeRecord}
    (added : tree.addRecord record = .ok tree') : tree'.WellFormed :=
  wellFormed_kept.addRecord wf wf trivial added

namespace Kept

variable {allowed : String → Prop} {P : LiveTree → Prop} (kept : Kept allowed P)
include kept

/-- Edits creating nodes only at allowed paths keep the property. -/
theorem editAll {tree : LiveTree} (wf : tree.WellFormed) (holds : P tree) {edits : List Edit}
    (fits : ∀ e ∈ edits, e.Allowed allowed) : P (tree.editAll edits) := by
  -- On the edits, the first one made first, carrying well-formedness along.
  induction edits generalizing tree with
  | nil => exact holds
  | cons e rest ih =>
    exact ih (wf.edit e) (kept.edit wf holds (fits e List.mem_cons_self))
      fun other mem => fits other (List.mem_cons_of_mem _ mem)

/-- A successful rebuild out of records at allowed paths has the property when the empty tree
has it. -/
theorem ofRecords {records : List NodeRecord} {tree : LiveTree}
    (built : LiveTree.ofRecords records = .ok tree) (holdsEmpty : P empty)
    (fits : ∀ record ∈ records, allowed record.path) : tree.WellFormed ∧ P tree := by
  unfold LiveTree.ofRecords at built
  -- On the records, from any well-formed tree built so far that has the property.
  suffices ∀ part : LiveTree, part.WellFormed → P part →
      records.foldlM LiveTree.addRecord part = .ok tree → tree.WellFormed ∧ P tree from
    this _ WellFormed.empty holdsEmpty built
  clear built
  induction records with
  | nil =>
    intro part partWf holds folded
    cases folded
    exact ⟨partWf, holds⟩
  | cons record rest ih =>
    intro part partWf holds folded
    rw [List.foldlM_cons] at folded
    cases added : part.addRecord record with
    | error e => simp [added, bind, Except.bind] at folded
    | ok part₁ =>
      simp only [added, bind, Except.bind] at folded
      exact ih (fun other mem => fits other (List.mem_cons_of_mem _ mem)) part₁
        (partWf.addRecord added) (kept.addRecord partWf holds (fits record List.mem_cons_self)
          added) folded

end Kept

theorem WellFormed.editAll {tree : LiveTree} (wf : tree.WellFormed) (edits : List Edit) :
    (tree.editAll edits).WellFormed :=
  wellFormed_kept.editAll wf wf fun e _ => by cases e <;> trivial

/-- A successful rebuild gives a well-formed tree, whatever the records. -/
theorem wellFormed_of_ofRecords {records : List NodeRecord} {tree : LiveTree}
    (built : ofRecords records = .ok tree) : tree.WellFormed :=
  (wellFormed_kept.ofRecords built WellFormed.empty fun _ _ => trivial).1

/-- Every node besides the root is at a segmented path. -/
def SegmentedPaths (tree : LiveTree) : Prop :=
  ∀ node ∈ tree.nodes, node.id ≠ NodeId.root → Path.Segmented node.path

theorem segmentedPaths_empty : empty.SegmentedPaths := by
  intro node nodeMem notRoot
  rw [empty, List.mem_singleton] at nodeMem
  exact absurd (congrArg LiveNode.id nodeMem) notRoot

/-- Creating at segmented paths keeps every path segmented: the new node is at the path it was
asked for, and the others keep theirs. -/
theorem segmentedPaths_kept : Kept Path.Segmented SegmentedPaths where
  create := by
    intro tree new result wf holds segmented created node nodeMem notRoot
    obtain ⟨parent, name, -, -, -, -, -, rfl⟩ := wf.create_eq_withCreated created
    rcases mem_withCreated.1 nodeMem with rfl | ⟨old, oldMem, rfl⟩
    · exact segmented
    · exact holds old oldMem notRoot
  drop := by
    intro tree path result wf holds dropped node nodeMem notRoot
    obtain ⟨gone, -, -, -, -, rfl⟩ := wf.drop_eq_withDropped dropped
    obtain ⟨old, oldMem, -, rfl⟩ := mem_withDropped.1 nodeMem
    exact holds old oldMem notRoot

/-! ## What a well-formed tree looks like -/

/-- Looking up a path fails only when no node is there. -/
theorem get_eq_error {tree : LiveTree} {path : String} {e : TreeError}
    (failed : tree.get path = .error e) : e = .nodeNotFound path := by
  unfold get at failed
  split at failed
  · cases failed
  · exact (Except.error.inj failed).symm

namespace WellFormed

variable {tree : LiveTree} (wf : tree.WellFormed)
include wf

/-- Following parents from any node reaches the root: each parent's path is shorter. -/
theorem reachesRoot : ∀ node ∈ tree.nodes, tree.ReachesRoot node.id := by
  intro node nodeMem
  -- On the length of the node's path.
  induction h : node.path.length using Nat.strong_induction_on generalizing node with
  | _ length ih =>
    by_cases isRoot : node.id = NodeId.root
    · rw [isRoot]
      exact .root
    · obtain ⟨parent, parentMem, parentId, -, split⟩ := wf.parentMem node nodeMem isRoot
      have shorter := Path.length_lt_of_split split
      rw [h] at shorter
      exact .parent nodeMem (parentId ▸ ih _ shorter parent parentMem rfl)

theorem consistent : tree.Consistent where
  root := by
    obtain ⟨children, rootMem⟩ := wf.rootMem
    exact ⟨_, wf.node?_eq_some_iff.2 ⟨rootMem, rfl⟩, rfl, rfl, rfl, rfl⟩
  parent := by
    intro node nodeMem notRoot
    obtain ⟨parent, parentMem, parentId, parentDir, -⟩ := wf.parentMem node nodeMem notRoot
    refine ⟨parent, wf.node?_eq_some_iff.2 ⟨parentMem, parentId⟩, parentDir, ?_⟩
    exact (Children.find?_eq_some_iff (wf.childrenSorted parent parentMem)).2
      ((wf.memChildren parent parentMem _).2 ⟨node, nodeMem, notRoot, parentId.symm, rfl⟩)
  children := by
    intro node nodeMem entry entryMem
    obtain ⟨child, childMem, -, childParent, rfl⟩ := (wf.memChildren node nodeMem entry).1 entryMem
    exact ⟨child, wf.node?_eq_some_iff.2 ⟨childMem, rfl⟩, childParent, rfl⟩
  index _ _ := wf.pathId?_eq_some_iff
  pathsDistinct _ nodeMem _ otherMem samePath := wf.eq_of_path_eq nodeMem otherMem samePath
  split := by
    intro node nodeMem notRoot
    obtain ⟨parent, parentMem, parentId, -, split⟩ := wf.parentMem node nodeMem notRoot
    exact ⟨parent, wf.node?_eq_some_iff.2 ⟨parentMem, parentId⟩, split⟩
  reachesRoot := wf.reachesRoot

/-- The size is the number of nodes besides the root. -/
theorem size_eq : tree.size = (tree.nodes.filter fun node => !node.isRoot).length := by
  -- Exactly one node is the root: the ids are distinct and the root is present.
  have rootOnce : (tree.nodes.filter fun node => node.isRoot).length = 1 := by
    obtain ⟨children, rootMem⟩ := wf.rootMem
    have listed : { LiveNode.root with children := children } ∈
        tree.nodes.filter fun node => node.isRoot :=
      List.mem_filter.2 ⟨rootMem, by simp [LiveNode.isRoot, LiveNode.root]⟩
    have atMostOne : ∀ node ∈ tree.nodes.filter (fun node => node.isRoot),
        node = { LiveNode.root with children := children } := by
      intro node mem
      obtain ⟨nodeMem, isRoot⟩ := List.mem_filter.1 mem
      exact wf.eq_of_id_eq nodeMem rootMem (by simpa [LiveNode.isRoot, LiveNode.root] using isRoot)
    have nodup : (tree.nodes.filter fun node => node.isRoot).Nodup :=
      (wf.idsNodup.of_map _).sublist List.filter_sublist
    have single := List.eq_replicate_of_mem atMostOne
    have atMost : (tree.nodes.filter fun node => node.isRoot).length ≤ 1 := by
      rw [single] at nodup
      exact List.nodup_replicate.1 nodup
    have atLeast := List.length_pos_of_mem listed
    omega
  unfold LiveTree.size
  have split := List.length_eq_length_filter_add (l := tree.nodes) fun node => node.isRoot
  omega

/-- `create` finds no entry of the path index at the path it is asked for. -/
theorem pathId?_of_create {new : NewNode} {result : LiveTree × LiveNode}
    (created : tree.create new = .ok result) : tree.pathId? new.path = none := by
  obtain ⟨parent, name, parentMem, -, split, -, nameFree, -⟩ := wf.create_eq_withCreated created
  have noNode := wf.path_ne_of_name_free parentMem split nameFree
  rw [pathId?_eq_none_iff]
  intro entry entryMem samePath
  obtain ⟨node, nodeMem, -, nodePath⟩ := (wf.memPaths entry.1 entry.2).1 entryMem
  exact noNode node nodeMem (nodePath.trans samePath)

/-- A failed `create` of a free id was refused on its path. -/
theorem create_eq_error_of_fresh {new : NewNode} {e : TreeError}
    (fresh : tree.node? new.id = none) (failed : tree.create new = .error e) :
    (∃ pathError, e = .invalidPath pathError) ∨ (∃ path, e = .nodeNotFound path) ∨
      (∃ path, e = .notADirectory path) ∨ ∃ parent name, e = .duplicateChild parent name := by
  unfold LiveTree.create at failed
  have taken : (tree.node? new.id).isSome = false := by rw [fresh]; rfl
  cases split : Path.split new.path with
  | error pathError =>
    simp [taken, split, bind, Except.bind, Except.mapError_error] at failed
    exact .inl ⟨pathError, failed.symm⟩
  | ok pair =>
    obtain ⟨parentPath, name⟩ := pair
    cases found : tree.get parentPath with
    | error missing =>
      simp [taken, split, found, bind, Except.bind, Except.mapError_ok] at failed
      exact .inr (.inl ⟨parentPath, failed ▸ get_eq_error found⟩)
    | ok parent =>
      by_cases dir : parent.kind.isDir = true
      · -- The parent was found through the index, so the arena has it: only the name can clash.
        have listed : tree.node? parent.id = some parent :=
          wf.node?_eq_some_iff.2 ⟨(wf.find?_eq_some_iff.1 (get_eq_ok_iff.1 found)).1, rfl⟩
        cases added : tree.addChild parent.id name new.id with
        | error addError =>
          simp [taken, split, found, dir, added, bind, Except.bind, Except.mapError_ok] at failed
          simp only [addChild, listed] at added
          split at added
          · exact .inr (.inr (.inr ⟨_, _, failed ▸ (Except.error.inj added).symm⟩))
          · cases added
        | ok created =>
          simp [taken, split, found, dir, added, bind, Except.bind, Except.mapError_ok, pure,
            Except.pure] at failed
      · simp [taken, split, found, dir, bind, Except.bind, Except.mapError_ok, throw, throwThe,
          MonadExceptOf.throw] at failed
        exact .inr (.inr (.inl ⟨_, failed.symm⟩))

/-- A failed `create` was refused by one of its checks, all made before the tree changes. -/
theorem create_eq_error {new : NewNode} {e : TreeError} (failed : tree.create new = .error e) :
    e = .duplicateId new.id ∨ (∃ pathError, e = .invalidPath pathError) ∨
      (∃ path, e = .nodeNotFound path) ∨ (∃ path, e = .notADirectory path) ∨
      ∃ parent name, e = .duplicateChild parent name := by
  cases taken : tree.node? new.id with
  | some node =>
    unfold LiveTree.create at failed
    simp [taken, bind, Except.bind, throw, throwThe, MonadExceptOf.throw] at failed
    exact .inl failed.symm
  | none => exact .inr (wf.create_eq_error_of_fresh taken failed)

/-- A failed `drop` was refused by one of its checks, all made before the tree changes. -/
theorem drop_eq_error {path : String} {e : TreeError} (failed : tree.drop path = .error e) :
    e = .nodeNotFound path ∨ e = .rootImmutable ∨ ∃ count, e = .hasChildren path count := by
  unfold LiveTree.drop at failed
  cases found : tree.get path with
  | error missing =>
    simp only [found, bind, Except.bind] at failed
    exact .inl ((Except.error.inj failed) ▸ get_eq_error found)
  | ok node =>
    by_cases isRoot : node.isRoot = true
    · simp [found, isRoot, bind, Except.bind, throw, throwThe, MonadExceptOf.throw] at failed
      exact .inr (.inl failed.symm)
    by_cases hasChildren : node.children.length > 0
    · simp [found, isRoot, hasChildren, bind, Except.bind, throw, throwThe,
        MonadExceptOf.throw] at failed
      exact .inr (.inr ⟨_, failed.symm⟩)
    -- A childless node other than the root is listed by its parent, so taking it out succeeds.
    have nodeMem := (wf.find?_eq_some_iff.1 (get_eq_ok_iff.1 found)).1
    have notRoot : node.id ≠ NodeId.root := by simpa [LiveNode.isRoot] using isRoot
    obtain ⟨parent, parentFound, -, listed⟩ := wf.consistent.parent node nodeMem notRoot
    simp [found, isRoot, hasChildren, removeChild, parentFound, listed, bind, Except.bind, pure,
      Except.pure] at failed

/-- A node at a segmented path is where joining its parent's path and its name leads. -/
theorem join_parent_path {node parent : LiveNode} (nodeMem : node ∈ tree.nodes)
    (notRoot : node.id ≠ NodeId.root) (segmented : Path.Segmented node.path)
    (parentMem : parent ∈ tree.nodes) (parentId : parent.id = node.parent) :
    Path.join parent.path node.name = node.path := by
  obtain ⟨listed, listedMem, listedId, -, split⟩ := wf.parentMem node nodeMem notRoot
  have same : listed = parent := wf.eq_of_id_eq listedMem parentMem (listedId.trans parentId.symm)
  -- The path splits one way only, so the split it joins back from is the parent's.
  obtain ⟨parentPath, name, split', joined, -⟩ := segmented.join_split (ne_root_of_split split)
  rw [split, same] at split'
  obtain ⟨rfl, rfl⟩ := Prod.mk.inj (Except.ok.inj split')
  exact joined

/-- When every path of the tree is segmented, the tree gives for the children of a node their
own paths, in order of name. -/
theorem childPaths_eq (segmented : ∀ node ∈ tree.nodes, node.id ≠ NodeId.root →
      Path.Segmented node.path)
    {node : LiveNode} (nodeMem : node ∈ tree.nodes) :
    ∃ kids : List LiveNode, tree.childPaths node.path = .ok (kids.map (·.path)) ∧
      (∀ child, child ∈ kids ↔ child ∈ tree.nodes ∧ child.id ≠ NodeId.root ∧
        child.parent = node.id) ∧
      kids.Pairwise fun a b => a.name < b.name := by
  have found : tree.get node.path = .ok node :=
    get_eq_ok_iff.2 (wf.find?_eq_some_iff.2 ⟨nodeMem, rfl⟩)
  have named : ∀ entry ∈ node.children, ∀ child, tree.node? entry.2 = some child →
      child.name = entry.1 := by
    intro entry entryMem child childFound
    obtain ⟨listed, listedFound, -, listedName⟩ := wf.consistent.children node nodeMem entry entryMem
    rw [childFound] at listedFound
    rw [Option.some.inj listedFound, listedName]
  -- The children are the nodes the entries name, in the entries' order.
  refine ⟨node.children.filterMap fun entry => tree.node? entry.2, ?_, fun child => ?_, ?_⟩
  · simp only [childPaths, found, bind, Except.bind, pure, Except.pure, List.map_filterMap]
    rw [← List.filterMap_eq_map]
    congr 1
    refine List.filterMap_congr fun entry entryMem => ?_
    obtain ⟨child, childMem, notRoot, childParent, rfl⟩ :=
      (wf.memChildren node nodeMem entry).1 entryMem
    rw [wf.node?_eq_some_iff.2 ⟨childMem, rfl⟩, Option.map_some, Function.comp_apply,
      wf.join_parent_path childMem notRoot (segmented child childMem notRoot) nodeMem
        childParent.symm]
  · rw [List.mem_filterMap]
    constructor
    · rintro ⟨entry, entryMem, childFound⟩
      obtain ⟨listed, listedMem, notRoot, listedParent, rfl⟩ :=
        (wf.memChildren node nodeMem entry).1 entryMem
      obtain ⟨childMem, sameId⟩ := wf.node?_eq_some_iff.1 childFound
      rw [wf.eq_of_id_eq childMem listedMem sameId]
      exact ⟨listedMem, notRoot, listedParent⟩
    · rintro ⟨childMem, notRoot, childParent⟩
      exact ⟨(child.name, child.id),
        (wf.memChildren node nodeMem _).2 ⟨child, childMem, notRoot, childParent, rfl⟩,
        wf.node?_eq_some_iff.2 ⟨childMem, rfl⟩⟩
  · rw [List.pairwise_filterMap]
    refine (wf.childrenSorted node nodeMem).imp_of_mem fun aMem bMem before => ?_
    intro a aFound b bFound
    rw [named _ aMem a aFound, named _ bMem b bFound]
    exact before

end WellFormed

/-! ## The tree under any edits -/

/-- From a successful rebuild out of records, any edits, with any ids and paths and whatever their
outcomes, leave a consistent tree whose size counts the nodes besides the root and where `create`
replaces no entry of the path index; with normalized paths, each node's children are listed by
their own paths, in order of name. -/
theorem edits_keep_tree_consistent {records : List NodeRecord} {start tree : LiveTree}
    (built : ofRecords records = .ok start) (edits : List Edit)
    (reached : start.editAll edits = tree) :
    tree.Consistent ∧ tree.size = (tree.nodes.filter fun node => !node.isRoot).length ∧
      (∀ new result, tree.create new = .ok result → tree.pathId? new.path = none) ∧
      ((∀ record ∈ records, ∃ raw, Path.normalize raw = .ok record.path) →
        (∀ e ∈ edits, e.Allowed fun path => ∃ raw, Path.normalize raw = .ok path) →
        ∀ node ∈ tree.nodes, ∃ kids : List LiveNode,
          tree.childPaths node.path = .ok (kids.map (·.path)) ∧
          (∀ child, child ∈ kids ↔
            child ∈ tree.nodes ∧ child.id ≠ NodeId.root ∧ child.parent = node.id) ∧
          kids.Pairwise fun a b => a.name < b.name) := by
  subst reached
  have wf := (wellFormed_of_ofRecords built).editAll edits
  refine ⟨wf.consistent, wf.size_eq, fun _ _ created => wf.pathId?_of_create created, ?_⟩
  intro normalRecords normalEdits
  have normalToSegmented : ∀ path, (∃ raw, Path.normalize raw = .ok path) → Path.Segmented path :=
    fun _ normal => Path.Segmented.of_normalize normal.choose_spec
  -- Every path stays segmented: the records' paths and the created ones are.
  have startSegmented := (segmentedPaths_kept.ofRecords built segmentedPaths_empty
    fun record mem => normalToSegmented _ (normalRecords record mem)).2
  have segmented := segmentedPaths_kept.editAll (wellFormed_of_ofRecords built) startSegmented
    fun e mem => (normalEdits e mem).imp normalToSegmented
  exact fun node nodeMem => wf.childPaths_eq segmented nodeMem

/-- Two directories created out of name order, a file created and dropped, and the root refused:
the tree is consistent and lists children by path, in order. -/
theorem edits_from_empty_list_children_in_order :
    ∃ tree, empty.editAll [.create ⟨1, 1, "/b", .dir, none⟩, .create ⟨2, 1, "/a", .dir, none⟩,
        .create ⟨3, 1, "/a/c", .file, none⟩, .drop "/a/c", .drop "/"] = tree ∧
      tree.Consistent ∧ ∀ node ∈ tree.nodes, ∃ kids : List LiveNode,
        tree.childPaths node.path = .ok (kids.map (·.path)) ∧
        kids.Pairwise fun a b => a.name < b.name := by
  refine ⟨_, rfl, (@edits_keep_tree_consistent [] _ _ rfl _ rfl).1, fun node nodeMem => ?_⟩
  obtain ⟨kids, paths, -, sorted⟩ := (@edits_keep_tree_consistent [] _ _ rfl _ rfl).2.2.2
    (by simp) (by
      simp only [List.forall_mem_cons, List.not_mem_nil, Edit.Allowed]
      exact ⟨⟨"/b", by decide⟩, ⟨"/a", by decide⟩, ⟨"/a/c", by decide⟩, trivial, trivial,
        fun _ => False.elim⟩) node nodeMem
  exact ⟨kids, paths, sorted⟩

end LiveTree
end TreeHistory
