import Mathlib
import TreeHistory.Proofs.Tree.Rebuild

/-!
# Renaming the ids of a live tree

A tree and a copy of it whose ids were renamed by an injective `f` answer every lookup alike, up
to `f` (`LiveTree.Renamed`): the node at `f id` is the node at `id` renamed, and every path names
the renamed id. A node's predecessor names a stored row, not a node of the tree, and keeps its id.

Nothing the live tree does looks at an id beyond comparing it for equality, so every operation
keeps the relation: run on the renamed tree with renamed arguments, it fails with the renamed
error or succeeds with the renamed result (`LiveTree.Renames`). A renaming is the relabeling that
leaves predecessors alone, and these facts are proved once, for relabelings
(`LiveTree.Relabeled`).
-/

namespace TreeHistory

variable {f : NodeId → NodeId}

/-- An injective renaming keeps every comparison of ids for equality. -/
theorem beq_rename (inj : Function.Injective f) (a b : NodeId) : (f a == f b) = (a == b) :=
  Bool.eq_iff_iff.2 (by simp [inj.eq_iff])

theorem bne_rename (inj : Function.Injective f) (a b : NodeId) : (f a != f b) = (a != b) := by
  simp only [bne, beq_rename inj]

namespace Children

/-- The children with their ids renamed by `f`. -/
def rename (f : NodeId → NodeId) (children : Children) : Children :=
  children.map fun entry => (entry.1, f entry.2)

@[simp] theorem length_rename (children : Children) :
    (children.rename f).length = children.length := by
  simp [rename]

@[simp] theorem map_fst_rename (children : Children) :
    (children.rename f).map (·.1) = children.map (·.1) := by
  simp [rename, Function.comp_def]

theorem find?_rename (children : Children) (name : String) :
    (children.rename f).find? name = (children.find? name).map f := by
  simp [rename, find?, List.find?_map, Function.comp_def, Option.map_map]

theorem insert_rename (name : String) (id : NodeId) (children : Children) :
    (children.rename f).insert name (f id) = (children.insert name id).rename f := by
  induction children with
  | nil => rfl
  | cons entry rest ih =>
    by_cases first : name < entry.1
    · simp [rename, insert, first]
    · simp only [rename, List.map_cons, insert, first, if_false] at ih ⊢
      rw [ih]

theorem erase_rename (children : Children) (name : String) :
    (children.rename f).erase name = (children.erase name).rename f := by
  simp [rename, erase, List.filter_map, Function.comp_def]

end Children

/-- The predecessor's row keeps its id. -/
def NewNode.rename (f : NodeId → NodeId) (new : NewNode) : NewNode :=
  { new with id := f new.id }

@[simp] theorem NewNode.rename_id (new : NewNode) : (new.rename f).id = f new.id := rfl

@[simp] theorem NewNode.rename_path (new : NewNode) : (new.rename f).path = new.path := rfl

namespace LiveNode

/-- The node with its own id, its parent's and its children's renamed by `f`. -/
def rename (f : NodeId → NodeId) (node : LiveNode) : LiveNode :=
  { node with id := f node.id, parent := f node.parent, children := node.children.rename f }

section
variable (node : LiveNode)

@[simp] theorem rename_id : (node.rename f).id = f node.id := rfl
@[simp] theorem rename_parent : (node.rename f).parent = f node.parent := rfl
@[simp] theorem rename_children : (node.rename f).children = node.children.rename f := rfl
@[simp] theorem rename_revMin : (node.rename f).revMin = node.revMin := rfl
@[simp] theorem rename_name : (node.rename f).name = node.name := rfl
@[simp] theorem rename_path : (node.rename f).path = node.path := rfl
@[simp] theorem rename_kind : (node.rename f).kind = node.kind := rfl
@[simp] theorem rename_predecessor : (node.rename f).predecessor = node.predecessor := rfl

/-- Renaming keeps the root apart from every other node when it fixes the root's id. -/
theorem isRoot_rename (inj : Function.Injective f) (root : f NodeId.root = NodeId.root) :
    (node.rename f).isRoot = node.isRoot := by
  simp only [isRoot, rename_id]
  conv_lhs => rw [← root]
  simp [inj.eq_iff]

theorem rename_eq_self (fixesId : f node.id = node.id) (fixesParent : f node.parent = node.parent)
    (fixesChildren : node.children.rename f = node.children) : node.rename f = node := by
  unfold rename
  rw [fixesId, fixesParent, fixesChildren]

end

end LiveNode

/-- The window of a node with its own id and its parent's renamed by `f`. -/
def NodeRecord.rename (f : NodeId → NodeId) (record : NodeRecord) : NodeRecord :=
  { record with id := f record.id, parent := f record.parent }

namespace NodeRecord
variable (record : NodeRecord)

@[simp] theorem rename_id : (record.rename f).id = f record.id := rfl
@[simp] theorem rename_parent : (record.rename f).parent = f record.parent := rfl
@[simp] theorem rename_revMin : (record.rename f).revMin = record.revMin := rfl
@[simp] theorem rename_revMax : (record.rename f).revMax = record.revMax := rfl
@[simp] theorem rename_name : (record.rename f).name = record.name := rfl
@[simp] theorem rename_path : (record.rename f).path = record.path := rfl
@[simp] theorem rename_kind : (record.rename f).kind = record.kind := rfl
@[simp] theorem rename_predecessor : (record.rename f).predecessor = record.predecessor := rfl

theorem rename_eq_self (fixesId : f record.id = record.id)
    (fixesParent : f record.parent = record.parent) : record.rename f = record := by
  unfold rename
  rw [fixesId, fixesParent]

end NodeRecord

theorem LiveNode.toRecord_rename (node : LiveNode) :
    (node.rename f).toRecord = node.toRecord.rename f := rfl

/-- The error with the ids it names renamed by `f`. -/
def TreeError.rename (f : NodeId → NodeId) : TreeError → TreeError
  | .unknownNode id => .unknownNode (f id)
  | .duplicateId id => .duplicateId (f id)
  | .parentMismatch id path expected actual => .parentMismatch (f id) path (f expected) (f actual)
  | e => e

namespace LiveTree

/-- `other` is `tree` with its ids renamed by `f`: the node at `f id` is the node at `id`,
renamed, and each path names the renamed id. -/
structure Renamed (f : NodeId → NodeId) (tree other : LiveTree) : Prop where
  node? : ∀ id, other.node? (f id) = (tree.node? id).map (LiveNode.rename f)
  pathId? : ∀ path, other.pathId? path = (tree.pathId? path).map f

/-- The outcome of an operation on a renamed tree answers the outcome on the tree: the renamed
failure, or a success related to the tree's. -/
def Renames {α β : Type} (f : NodeId → NodeId) (related : α → β → Prop) :
    Except TreeError α → Except TreeError β → Prop
  | .error e, result => result = .error (e.rename f)
  | .ok a, result => ∃ b, result = .ok b ∧ related a b

theorem Renames.bind {α β γ δ : Type} {related : α → β → Prop} {related' : γ → δ → Prop}
    {x : Except TreeError α} {y : Except TreeError β} {k : α → Except TreeError γ}
    {k' : β → Except TreeError δ} (first : Renames f related x y)
    (rest : ∀ a b, related a b → Renames f related' (k a) (k' b)) :
    Renames f related' (x >>= k) (y >>= k') := by
  cases x with
  | error e =>
    simp only [Renames] at first
    subst first
    rfl
  | ok a =>
    obtain ⟨b, rfl, relatedAB⟩ := first
    exact rest a b relatedAB

theorem Renames.imp {α β : Type} {related related' : α → β → Prop} {x : Except TreeError α}
    {y : Except TreeError β} (renames : Renames f related x y)
    (weaken : ∀ a b, related a b → related' a b) : Renames f related' x y := by
  cases x with
  | error e => exact renames
  | ok a =>
    obtain ⟨b, rfl, relatedAB⟩ := renames
    exact ⟨b, rfl, weaken a b relatedAB⟩

theorem node?_id {tree : LiveTree} {id : NodeId} {node : LiveNode} (found : tree.node? id = some node) :
    node.id = id := by
  simpa using List.find?_some found

/-- Indexing `path` anew answers for `path` and leaves every other path as it was. -/
theorem pathId?_cons_filter (tree : LiveTree) (nodes : List LiveNode) (path : String) (id : NodeId)
    (query : String) :
    ({ nodes := nodes, paths := (path, id) :: tree.paths.filter (·.1 != path) } : LiveTree).pathId?
      query = if path = query then some id else tree.pathId? query := by
  unfold pathId?
  by_cases here : path = query
  · simp [here]
  · have skips : (tree.paths.filter (·.1 != path)).find? (·.1 == query) =
        tree.paths.find? (·.1 == query) := by
      rw [List.find?_filter]
      congr 1
      funext entry
      by_cases atQuery : entry.1 = query
      · simp [atQuery, Ne.symm here]
      · simp [atQuery]
    simp [here, skips]

/-- Taking a node out of the arena forgets its id and nothing else. -/
theorem node?_filter (tree : LiveTree) (paths : List (String × NodeId)) (id x : NodeId) :
    ({ nodes := tree.nodes.filter (·.id != id), paths := paths } : LiveTree).node? x =
      if id = x then none else tree.node? x := by
  unfold node?
  rw [List.find?_filter]
  by_cases here : id = x
  · subst here
    simp
  · have same : (fun node : LiveNode => decide ((node.id != id) = true ∧ (node.id == x) = true)) =
        fun node => node.id == x := by
      funext node
      by_cases atX : node.id = x
      · simp [atX, Ne.symm here]
      · simp [atX]
    rw [same, if_neg here]

/-- Taking a path out of the index forgets it and nothing else. -/
theorem pathId?_filter (tree : LiveTree) (nodes : List LiveNode) (path query : String) :
    ({ nodes := nodes, paths := tree.paths.filter (·.1 != path) } : LiveTree).pathId? query =
      if path = query then none else tree.pathId? query := by
  unfold pathId?
  rw [List.find?_filter]
  by_cases here : path = query
  · subst here
    simp
  · have same : (fun entry : String × NodeId => decide ((entry.1 != path) = true ∧
        (entry.1 == query) = true)) = fun entry => entry.1 == query := by
      funext entry
      by_cases atQuery : entry.1 = query
      · simp [atQuery, Ne.symm here]
      · simp [atQuery]
    rw [same, if_neg here]

theorem node?_of_find? {tree : LiveTree} {path : String} {node : LiveNode}
    (found : tree.find? path = some node) : tree.node? node.id = some node := by
  unfold find? at found
  cases indexed : tree.pathId? path with
  | none => simp [indexed] at found
  | some id =>
    simp only [indexed, Option.bind_some] at found
    rw [node?_id found]
    exact found

variable {tree other : LiveTree}

namespace Renamed

/-- A tree that holds the same nodes as a tree whose ids `f` fixes is its renaming. -/
theorem of_same (inj : Function.Injective f) (same : other.Same tree)
    (fixes : ∀ id node, tree.node? id = some node → node.rename f = node)
    (fixesPaths : ∀ path id, tree.pathId? path = some id → f id = id) : tree.Renamed f other := by
  constructor
  · intro id
    rw [same.node? (f id)]
    cases found : tree.node? id with
    | some node =>
      have fixed : f id = id := by
        rw [← node?_id found]
        exact congrArg LiveNode.id (fixes id node found)
      rw [fixed, found, Option.map_some, fixes id node found]
    | none =>
      cases image : tree.node? (f id) with
      | none => rfl
      | some node =>
        -- The node found at `f id` keeps its id, so `f` fixes `f id` and `id` was that id.
        have fixed : f (f id) = f id := by
          rw [← node?_id image]
          exact congrArg LiveNode.id (fixes _ node image)
        rw [inj fixed, found] at image
        cases image
  · intro path
    rw [same.pathId? path]
    cases found : tree.pathId? path with
    | none => rfl
    | some id => rw [Option.map_some, fixesPaths path id found]

/-- A well-formed tree whose ids `f` fixes is renamed into every tree that holds the same nodes. -/
theorem of_fixes (inj : Function.Injective f) (wf : tree.WellFormed) (same : other.Same tree)
    (fixes : ∀ node ∈ tree.nodes, f node.id = node.id) : tree.Renamed f other := by
  obtain ⟨rootChildren, rootMem⟩ := wf.rootMem
  refine of_same inj same (fun key node found => ?_) (fun path key found => ?_)
  · obtain ⟨mem, -⟩ := wf.node?_eq_some_iff.1 found
    -- The root is its own parent; every other node's parent is a node of the tree.
    have parentFixed : f node.parent = node.parent := by
      by_cases isRoot : node.id = NodeId.root
      · rw [wf.eq_of_id_eq mem rootMem isRoot]
        exact fixes _ rootMem
      · obtain ⟨parent, parentMem, parentId, -⟩ := wf.parentMem node mem isRoot
        rw [← parentId]
        exact fixes parent parentMem
    have childrenFixed : node.children.rename f = node.children := by
      calc node.children.rename f = node.children.map id :=
            List.map_congr_left fun entry entryMem => by
              obtain ⟨child, childMem, -, -, rfl⟩ := (wf.memChildren node mem entry).1 entryMem
              simp [fixes child childMem]
        _ = node.children := List.map_id _
    exact node.rename_eq_self (fixes node mem) parentFixed childrenFixed
  · obtain ⟨node, mem, rfl, -⟩ := wf.pathId?_eq_some_iff.1 found
    exact fixes node mem

end Renamed

theorem mem_keys_iff {tree : LiveTree} {path : String} :
    path ∈ tree.paths.map (·.1) ↔ (tree.pathId? path).isSome := by
  rw [← Option.ne_none_iff_isSome, Ne, pathId?_eq_none_iff]
  simp

end LiveTree
end TreeHistory
