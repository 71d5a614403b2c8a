import Mathlib
import TreeHistory.Proofs.Tree.Rename

/-!
# Relabeling every id a live tree names

`LiveTree.Renamed` renames the ids of the nodes and keeps the ids their predecessors name, which
are stored rows that a renaming of new ids leaves alone. When the ids a copy names are new ids too,
the predecessors have to follow: `LiveNode.relabel f p` renames the node's own ids by `f` and maps
its predecessor by `p`.

The tree operations never read a predecessor, so each keeps the relation between a tree and its
relabeled copy (`LiveTree.Relabeled`): run on the relabeled tree with relabeled arguments, it
fails with the renamed error or succeeds with the relabeled result. So does rebuilding a tree from
stored records (`Relabeled.ofRecords`). A renaming is the relabeling by `f` and `id`
(`Renamed.relabeled_id`), so it keeps the relation too.
-/

namespace TreeHistory

variable {f : NodeId → NodeId} {p : Option Predecessor → Option Predecessor}

/-- A predecessor naming the row `f` renames its row to. -/
def Predecessor.rename (f : NodeId → NodeId) (predecessor : Predecessor) : Predecessor :=
  { predecessor with id := f predecessor.id }

@[simp] theorem Predecessor.rename_id (predecessor : Predecessor) :
    (predecessor.rename f).id = f predecessor.id := rfl

@[simp] theorem Predecessor.rename_type (predecessor : Predecessor) :
    (predecessor.rename f).type = predecessor.type := rfl

/-- The new node with its id renamed by `f` and its predecessor mapped by `p`. -/
def NewNode.relabel (f : NodeId → NodeId) (p : Option Predecessor → Option Predecessor)
    (new : NewNode) : NewNode :=
  { new with id := f new.id, predecessor := p new.predecessor }

@[simp] theorem NewNode.relabel_id (new : NewNode) : (new.relabel f p).id = f new.id := rfl

@[simp] theorem NewNode.relabel_path (new : NewNode) : (new.relabel f p).path = new.path := rfl

namespace LiveNode

/-- The node with its own id, its parent's and its children's renamed by `f`, and its predecessor
mapped by `p`. -/
def relabel (f : NodeId → NodeId) (p : Option Predecessor → Option Predecessor)
    (node : LiveNode) : LiveNode :=
  { node with id := f node.id, parent := f node.parent, children := node.children.rename f,
              predecessor := p node.predecessor }

section
variable (node : LiveNode)

@[simp] theorem relabel_id : (node.relabel f p).id = f node.id := rfl
@[simp] theorem relabel_parent : (node.relabel f p).parent = f node.parent := rfl
@[simp] theorem relabel_children : (node.relabel f p).children = node.children.rename f := rfl
@[simp] theorem relabel_revMin : (node.relabel f p).revMin = node.revMin := rfl
@[simp] theorem relabel_name : (node.relabel f p).name = node.name := rfl
@[simp] theorem relabel_path : (node.relabel f p).path = node.path := rfl
@[simp] theorem relabel_kind : (node.relabel f p).kind = node.kind := rfl
@[simp] theorem relabel_predecessor : (node.relabel f p).predecessor = p node.predecessor := rfl

theorem isRoot_relabel (inj : Function.Injective f) (root : f NodeId.root = NodeId.root) :
    (node.relabel f p).isRoot = node.isRoot := by
  simp only [isRoot, relabel_id]
  conv_lhs => rw [← root]
  simp [inj.eq_iff]

end

end LiveNode

/-- The window with its own id and its parent's renamed by `f`, and its predecessor mapped by
`p`. -/
def NodeRecord.relabel (f : NodeId → NodeId) (p : Option Predecessor → Option Predecessor)
    (record : NodeRecord) : NodeRecord :=
  { record with id := f record.id, parent := f record.parent, predecessor := p record.predecessor }

namespace NodeRecord
variable (record : NodeRecord)

@[simp] theorem relabel_id : (record.relabel f p).id = f record.id := rfl
@[simp] theorem relabel_parent : (record.relabel f p).parent = f record.parent := rfl
@[simp] theorem relabel_revMin : (record.relabel f p).revMin = record.revMin := rfl
@[simp] theorem relabel_revMax : (record.relabel f p).revMax = record.revMax := rfl
@[simp] theorem relabel_name : (record.relabel f p).name = record.name := rfl
@[simp] theorem relabel_path : (record.relabel f p).path = record.path := rfl
@[simp] theorem relabel_kind : (record.relabel f p).kind = record.kind := rfl
@[simp] theorem relabel_predecessor :
    (record.relabel f p).predecessor = p record.predecessor := rfl

@[simp] theorem relabel_covers (r : Revnum) : (record.relabel f p).covers r = record.covers r := rfl

@[simp] theorem relabel_isLive : (record.relabel f p).isLive = record.isLive := rfl

end NodeRecord

theorem LiveNode.toRecord_relabel (node : LiveNode) :
    (node.relabel f p).toRecord = node.toRecord.relabel f p := rfl

namespace LiveTree

/-- `other` is `tree` with its ids renamed by `f` and its predecessors mapped by `p`: the node at
`f id` is the node at `id` relabeled, and each path names the renamed id. -/
structure Relabeled (f : NodeId → NodeId) (p : Option Predecessor → Option Predecessor)
    (tree other : LiveTree) : Prop where
  node? : ∀ id, other.node? (f id) = (tree.node? id).map (LiveNode.relabel f p)
  pathId? : ∀ path, other.pathId? path = (tree.pathId? path).map f

variable {tree other : LiveTree}

namespace Relabeled

theorem find? (relabeled : tree.Relabeled f p other) (path : String) :
    other.find? path = (tree.find? path).map (LiveNode.relabel f p) := by
  unfold LiveTree.find?
  rw [relabeled.pathId? path]
  cases tree.pathId? path with
  | none => rfl
  | some id => exact relabeled.node? id

theorem get (relabeled : tree.Relabeled f p other) (path : String) :
    other.get path = (tree.get path).map (LiveNode.relabel f p) := by
  unfold LiveTree.get
  rw [relabeled.find? path]
  cases tree.find? path <;> rfl

theorem get_renames (relabeled : tree.Relabeled f p other) (path : String) :
    Renames f (fun node node' => node' = node.relabel f p) (tree.get path) (other.get path) := by
  rw [relabeled.get path]
  unfold LiveTree.get
  cases tree.find? path with
  | none => rfl
  | some node => exact ⟨_, rfl, rfl⟩

theorem childPaths (relabeled : tree.Relabeled f p other) (path : String) :
    other.childPaths path = tree.childPaths path := by
  unfold LiveTree.childPaths
  rw [relabeled.get path]
  cases tree.get path with
  | error e => rfl
  | ok node => simp [Except.map, bind, Except.bind, pure, Except.pure, Children.rename]

/-- Changing the children of one node alike on both sides keeps the relation. -/
theorem update_children (inj : Function.Injective f) (relabeled : tree.Relabeled f p other)
    {change change' : Children → Children}
    (commutes : ∀ children, change' (children.rename f) = (change children).rename f) (id : NodeId) :
    (tree.update id fun node => { node with children := change node.children }).Relabeled f p
      (other.update (f id) fun node => { node with children := change' node.children }) := by
  constructor
  · intro x
    rw [node?_update_children, node?_update_children, relabeled.node? x]
    cases found : tree.node? x with
    | none => rfl
    | some node =>
      by_cases here : node.id = id
      · simp [here, commutes, LiveNode.relabel]
      · have apart : f node.id ≠ f id := fun same => here (inj same)
        simp [here, apart, LiveNode.relabel]
  · exact relabeled.pathId?

theorem addChild (inj : Function.Injective f) (relabeled : tree.Relabeled f p other)
    (parent : NodeId) (name : String) (child : NodeId) :
    Renames f (Relabeled f p) (tree.addChild parent name child)
      (other.addChild (f parent) name (f child)) := by
  unfold LiveTree.addChild
  rw [relabeled.node? parent]
  cases tree.node? parent with
  | none => rfl
  | some node =>
    simp only [Option.map_some, LiveNode.relabel_children, Children.find?_rename,
      Option.isSome_map, LiveNode.relabel_path]
    split
    · rfl
    · exact ⟨_, rfl, relabeled.update_children inj
        (fun children => Children.insert_rename name child children) parent⟩

theorem removeChild (inj : Function.Injective f) (relabeled : tree.Relabeled f p other)
    (parent : NodeId) (name : String) :
    Renames f (fun result result' => result.1.Relabeled f p result'.1 ∧ result'.2 = f result.2)
      (tree.removeChild parent name) (other.removeChild (f parent) name) := by
  unfold LiveTree.removeChild
  rw [relabeled.node? parent]
  cases tree.node? parent with
  | none => rfl
  | some node =>
    simp only [Option.map_some, LiveNode.relabel_children, Children.find?_rename,
      LiveNode.relabel_path]
    cases node.children.find? name with
    | none => rfl
    | some child =>
      exact ⟨_, rfl,
        relabeled.update_children inj (fun children => Children.erase_rename children name) parent,
        rfl⟩

/-- Adding a node and indexing its path alike on both sides keeps the relation. -/
theorem append (inj : Function.Injective f) (relabeled : tree.Relabeled f p other)
    (node : LiveNode) (path : String) :
    Relabeled f p { nodes := tree.nodes ++ [node],
                    paths := (path, node.id) :: tree.paths.filter (·.1 != path) }
      { nodes := other.nodes ++ [node.relabel f p],
        paths := (path, f node.id) :: other.paths.filter (·.1 != path) } := by
  constructor
  · intro x
    simp only [LiveTree.node?, List.find?_append]
    have relabeledX := relabeled.node? x
    simp only [LiveTree.node?] at relabeledX
    rw [relabeledX]
    cases tree.nodes.find? (fun node => node.id == x) with
    | some found => rfl
    | none =>
      by_cases here : node.id = x
      · simp [here]
      · have apart : f node.id ≠ f x := fun same => here (inj same)
        simp [here, apart]
  · intro query
    rw [pathId?_cons_filter, pathId?_cons_filter, relabeled.pathId? query]
    split <;> rfl

/-- Removing a node and its path alike on both sides keeps the relation. -/
theorem remove (inj : Function.Injective f) (relabeled : tree.Relabeled f p other) (id : NodeId)
    (path : String) :
    Relabeled f p
      { nodes := tree.nodes.filter (·.id != id), paths := tree.paths.filter (·.1 != path) }
      { nodes := other.nodes.filter (·.id != f id),
        paths := other.paths.filter (·.1 != path) } := by
  constructor
  · intro x
    rw [node?_filter, node?_filter, relabeled.node? x]
    by_cases here : id = x
    · simp [here]
    · have apart : f id ≠ f x := fun same => here (inj same)
      simp [here, apart]
  · intro query
    rw [pathId?_filter, pathId?_filter, relabeled.pathId? query]
    split <;> rfl

theorem create (inj : Function.Injective f) (relabeled : tree.Relabeled f p other)
    (new : NewNode) :
    Renames f
      (fun result result' => result.1.Relabeled f p result'.1 ∧ result'.2 = result.2.relabel f p)
      (tree.create new) (other.create (new.relabel f p)) := by
  unfold LiveTree.create
  simp only [NewNode.relabel_id, NewNode.relabel_path, relabeled.node? new.id]
  cases fresh : tree.node? new.id with
  | some node => simp [Renames, TreeError.rename, throw, throwThe, MonadExceptOf.throw, bind,
      Except.bind]
  | none =>
    simp only [Option.map_none, Option.isSome_none, Bool.false_eq_true, if_false]
    cases split : Path.split new.path with
    | error e =>
      simp [Renames, bind, Except.bind, Except.mapError_error, TreeError.rename]
    | ok pair =>
      obtain ⟨parentPath, name⟩ := pair
      simp only [Except.mapError_ok]
      have unchanged : Renames f (fun pair pair' => pair = pair')
          (Except.ok (parentPath, name) : Except TreeError _) (Except.ok (parentPath, name)) :=
        ⟨_, rfl, rfl⟩
      refine Renames.bind unchanged ?_
      rintro pair _ rfl
      refine Renames.bind (relabeled.get_renames pair.1) ?_
      rintro parent _ rfl
      simp only [LiveNode.relabel_kind, LiveNode.relabel_path, LiveNode.relabel_id]
      by_cases dir : parent.kind.isDir = true
      · simp only [dir, Bool.not_true, Bool.false_eq_true, if_false]
        refine Renames.bind (relabeled.addChild inj parent.id pair.2 new.id) ?_
        intro tree₁ tree₁' relabeled₁
        exact ⟨_, rfl, relabeled₁.append inj _ new.path, rfl⟩
      · simp [dir, Renames, TreeError.rename, throw, throwThe, MonadExceptOf.throw, bind,
          Except.bind]

theorem drop (inj : Function.Injective f) (root : f NodeId.root = NodeId.root)
    (relabeled : tree.Relabeled f p other) (path : String) :
    Renames f
      (fun result result' => result.1.Relabeled f p result'.1 ∧ result'.2 = result.2.relabel f p)
      (tree.drop path) (other.drop path) := by
  unfold LiveTree.drop
  refine Renames.bind (relabeled.get_renames path) ?_
  rintro node _ rfl
  rw [LiveNode.isRoot_relabel node inj root]
  by_cases isRoot : node.isRoot = true
  · simp [isRoot, Renames, TreeError.rename, throw, throwThe, MonadExceptOf.throw, bind,
      Except.bind]
  simp only [isRoot, Bool.false_eq_true, if_false, LiveNode.relabel_children,
    Children.length_rename, LiveNode.relabel_parent, LiveNode.relabel_name]
  by_cases leaf : node.children.length > 0
  · simp [leaf, Renames, TreeError.rename, throw, throwThe, MonadExceptOf.throw, bind, Except.bind]
  simp only [leaf, if_false]
  refine Renames.bind (relabeled.removeChild inj node.parent node.name) ?_
  rintro ⟨tree₁, child⟩ ⟨tree₁', child'⟩ ⟨relabeled₁, -⟩
  exact ⟨_, rfl, relabeled₁.remove inj node.id path, rfl⟩

/-- A tree that holds the same nodes as the relabeled one is a relabeling too. -/
theorem same (relabeled : tree.Relabeled f p other) {other' : LiveTree} (same : other.Same other') :
    tree.Relabeled f p other' :=
  ⟨fun id => (same.node? (f id)).symm.trans (relabeled.node? id),
    fun path => (same.pathId? path).symm.trans (relabeled.pathId? path)⟩

/-- Well-formed trees related by a relabeling index as many paths. -/
theorem paths_length (relabeled : tree.Relabeled f p other) (wf : tree.WellFormed)
    (wf' : other.WellFormed) : other.paths.length = tree.paths.length := by
  have keys : (other.paths.map (·.1)).Perm (tree.paths.map (·.1)) := by
    rw [List.perm_ext_iff_of_nodup wf'.pathsNodup wf.pathsNodup]
    intro path
    rw [mem_keys_iff, mem_keys_iff, relabeled.pathId? path, Option.isSome_map]
  simpa using keys.length_eq

/-- Adding a stored record alike on both sides keeps the relation: the parent the record names
is checked against the same node on both sides. -/
theorem addRecord (inj : Function.Injective f) (relabeled : tree.Relabeled f p other)
    (record : NodeRecord) :
    Renames f (Relabeled f p) (tree.addRecord record) (other.addRecord (record.relabel f p)) := by
  unfold LiveTree.addRecord
  have created := relabeled.create inj
    { id := record.id, revMin := record.revMin, path := record.path, kind := record.kind,
      predecessor := record.predecessor }
  refine Renames.bind created ?_
  rintro ⟨tree₁, node⟩ ⟨tree₁', _⟩ ⟨relabeled₁, rfl⟩
  simp only [LiveNode.relabel_parent, NodeRecord.relabel_parent, bne_rename inj]
  by_cases mismatch : (node.parent != record.parent) = true
  · simp [mismatch, Renames, TreeError.rename, throw, throwThe, MonadExceptOf.throw, bind,
      Except.bind]
  · simp only [mismatch, Bool.false_eq_true, if_false]
    exact ⟨_, rfl, relabeled₁⟩

end Relabeled

/-! ## Renamings are relabelings -/

/-- A renaming is the relabeling that leaves predecessors alone. -/
theorem Renamed.relabeled_id (renamed : tree.Renamed f other) : tree.Relabeled f id other :=
  ⟨renamed.node?, renamed.pathId?⟩

theorem Relabeled.renamed (relabeled : tree.Relabeled f id other) : tree.Renamed f other :=
  ⟨relabeled.node?, relabeled.pathId?⟩

namespace Renamed

theorem find? (renamed : tree.Renamed f other) (path : String) :
    other.find? path = (tree.find? path).map (LiveNode.rename f) :=
  renamed.relabeled_id.find? path

theorem get_renames (renamed : tree.Renamed f other) (path : String) :
    Renames f (fun node node' => node' = node.rename f) (tree.get path) (other.get path) :=
  renamed.relabeled_id.get_renames path

theorem childPaths_renames (renamed : tree.Renamed f other) (path : String) :
    Renames f (fun paths paths' => paths' = paths) (tree.childPaths path) (other.childPaths path) := by
  unfold LiveTree.childPaths
  refine Renames.bind (renamed.get_renames path) ?_
  rintro node _ rfl
  exact ⟨_, rfl, by simp [Children.rename]⟩

theorem create (inj : Function.Injective f) (renamed : tree.Renamed f other) (new : NewNode) :
    Renames f (fun result result' => result.1.Renamed f result'.1 ∧ result'.2 = result.2.rename f)
      (tree.create new) (other.create (new.rename f)) :=
  (renamed.relabeled_id.create inj new).imp fun _ _ related => ⟨related.1.renamed, related.2⟩

theorem drop (inj : Function.Injective f) (root : f NodeId.root = NodeId.root)
    (renamed : tree.Renamed f other) (path : String) :
    Renames f (fun result result' => result.1.Renamed f result'.1 ∧ result'.2 = result.2.rename f)
      (tree.drop path) (other.drop path) :=
  (renamed.relabeled_id.drop inj root path).imp fun _ _ related => ⟨related.1.renamed, related.2⟩

theorem paths_length (renamed : tree.Renamed f other) (wf : tree.WellFormed)
    (wf' : other.WellFormed) : other.paths.length = tree.paths.length :=
  renamed.relabeled_id.paths_length wf wf'

end Renamed

/-- A renaming of a tree whose predecessors `p` fixes is a relabeling. -/
theorem Renamed.relabeled (renamed : tree.Renamed f other) (wf : tree.WellFormed)
    (fixes : ∀ node ∈ tree.nodes, p node.predecessor = node.predecessor) :
    tree.Relabeled f p other where
  node? id := by
    rw [renamed.node? id]
    cases found : tree.node? id with
    | none => rfl
    | some node =>
      obtain ⟨mem, -⟩ := wf.node?_eq_some_iff.1 found
      simp only [Option.map_some, Option.some.injEq]
      unfold LiveNode.relabel LiveNode.rename
      rw [fixes node mem]
  pathId? := renamed.pathId?

/-- The tree of the root alone is its own relabeling by a renaming that fixes the root and maps
no predecessor to none. -/
theorem relabeled_empty (inj : Function.Injective f) (root : f NodeId.root = NodeId.root)
    (rootPredecessor : p none = none) : empty.Relabeled f p empty := by
  constructor
  · intro id
    by_cases isRoot : id = NodeId.root
    · subst isRoot
      simp [empty, LiveTree.node?, LiveNode.relabel, LiveNode.root, root, rootPredecessor,
        Children.rename]
    · have image : f id ≠ NodeId.root := fun same => isRoot (inj (same.trans root.symm))
      simp [empty, LiveTree.node?, LiveNode.root, Ne.symm image, Ne.symm isRoot]
  · intro path
    simp [empty, LiveTree.pathId?, root]

namespace Relabeled

/-- Adding stored records alike on both sides, in the same order, keeps the relation. -/
theorem foldlM_addRecord (inj : Function.Injective f) :
    ∀ (records : List NodeRecord) {tree other : LiveTree}, tree.Relabeled f p other →
      Renames f (Relabeled f p) (records.foldlM LiveTree.addRecord tree)
        ((records.map (NodeRecord.relabel f p)).foldlM LiveTree.addRecord other)
  | [], _, _, relabeled => ⟨_, rfl, relabeled⟩
  | record :: rest, _, _, relabeled => by
    rw [List.map_cons, List.foldlM_cons, List.foldlM_cons]
    exact Renames.bind (relabeled.addRecord inj record) fun _ _ relabeled₁ =>
      foldlM_addRecord inj rest relabeled₁

/-- Rebuilding a tree from relabeled records gives the relabeled tree, or fails alike. -/
theorem ofRecords (inj : Function.Injective f) (root : f NodeId.root = NodeId.root)
    (rootPredecessor : p none = none) (records : List NodeRecord) :
    Renames f (Relabeled f p) (LiveTree.ofRecords records)
      (LiveTree.ofRecords (records.map (NodeRecord.relabel f p))) :=
  foldlM_addRecord inj records (relabeled_empty inj root rootPredecessor)

end Relabeled

end LiveTree

end TreeHistory
