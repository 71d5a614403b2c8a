import TreeHistory.Proofs.Ingest.DeepCopy
import TreeHistory.Proofs.Ingest.CopySource

/-!
# A copied directory in the tree a revision leaves

An event that adds or replaces a directory copied from a path and revision creates the directory
under the next id and copies what the store had below the source into it (`DeepCopy`). The rest of
the revision leaves that copy alone: an event changes the tree only at or below its own path, and
an event elsewhere comes after the target's in path order (`Untouched.stableWithin`). So the tree
the revision leaves mirrors the source below the target, with no content set for the copies.
-/

namespace TreeHistory

/-- A normalized path is not empty: it is the root's slash or starts one. -/
theorem Path.ne_empty_of_normalize {raw path : String} (normalized : Path.normalize raw = .ok path) :
    path ≠ "" := by
  unfold Path.normalize at normalized
  dsimp only at normalized
  split at normalized
  · cases normalized
  split at normalized
  · cases normalized
  split at normalized
  · cases normalized
  · cases normalized
    intro empty
    have chars := congrArg String.toList empty
    rw [String.toList_ofList] at chars
    revert chars
    cases Path.segments (Text.trimChars raw.toList) <;> simp [Path.renderChars]

namespace LiveTree.WellFormed

variable {tree : LiveTree}

/-- A node lies within its parent. -/
theorem within_parent (wf : tree.WellFormed) {node parent : LiveNode} (nodeMem : node ∈ tree.nodes)
    (notRoot : node.id ≠ NodeId.root) (parentMem : parent ∈ tree.nodes)
    (isParent : parent.id = node.parent) : Path.Within parent.path node.path := by
  obtain ⟨above, aboveMem, aboveId, -, split⟩ := wf.parentMem node nodeMem notRoot
  have same : above = parent := wf.eq_of_id_eq aboveMem parentMem (aboveId.trans isParent.symm)
  subst same
  exact Path.within_of_split split

/-- The children of a node of a well-formed tree are the ones it lists. -/
theorem childrenOf_of_mem (wf : tree.WellFormed) {node : LiveNode} (nodeMem : node ∈ tree.nodes) :
    tree.childrenOf node.id = node.children := by
  unfold childrenOf
  rw [wf.node?_eq_some_iff.2 ⟨nodeMem, rfl⟩]
  rfl

end LiveTree.WellFormed

namespace Ingestor

open LiveTree

/-! ## Events elsewhere leave a subtree alone -/

/-- Nothing at or below `target` has changed since `tree`, and no content is set for an id `ids`
names. -/
structure Untouched (target : String) (tree : LiveTree) (ids : NodeId → Prop) (s : Ingestor) :
    Prop where
  wellFormed : s.tree.WellFormed
  same : ∀ node : LiveNode, Path.Within target node.path → (node ∈ s.tree.nodes ↔ node ∈ tree.nodes)
  noContent : ∀ entry ∈ s.schedule.content, ¬ ids entry.1

namespace Untouched

variable {target path : String} {tree : LiveTree} {ids : NodeId → Prop} {s : Ingestor}

/-- Dropping a node outside the subtree: its parent is outside too, so no node of the subtree
changes. -/
theorem drop (untouched : Untouched target tree ids s) (apart : ¬ Path.Within target path)
    {result : LiveTree × LiveNode} (dropped : s.tree.drop path = .ok result) :
    Untouched target tree ids
      { s with tree := result.1, schedule := s.schedule.afterDrop result.2 } := by
  have wf := untouched.wellFormed
  obtain ⟨node, nodeMem, atPath, notRoot, leaf, rfl⟩ := wf.drop_eq_withDropped dropped
  have parentOutside : ∀ old ∈ s.tree.nodes, old.id = node.parent →
      ¬ Path.Within target old.path :=
    fun old oldMem isParent within =>
      apart (atPath ▸ within.trans (wf.within_parent nodeMem notRoot oldMem isParent))
  refine ⟨wf.withDropped nodeMem notRoot leaf, fun n within => ?_, fun entry mem => ?_⟩
  · show n ∈ (s.tree.withDropped node).nodes ↔ n ∈ tree.nodes
    rw [mem_withDropped, ← untouched.same n within]
    constructor
    · rintro ⟨old, oldMem, -, rfl⟩
      rw [if_neg fun isParent => parentOutside old oldMem isParent within]
      exact oldMem
    · intro nMem
      refine ⟨n, nMem, fun sameId => apart ?_, ?_⟩
      · rw [← atPath, ← wf.eq_of_id_eq nMem nodeMem sameId]
        exact within
      · rw [if_neg fun isParent => parentOutside n nMem isParent within]
  · rw [Schedule.afterDrop_content, ContentMap.mem_erase] at mem
    exact untouched.noContent entry mem.1

/-- Creating a node outside the subtree: its parent is outside too, so no node of the subtree
changes. -/
theorem create (untouched : Untouched target tree ids s) {new : NewNode}
    (apart : ¬ Path.Within target new.path) {result : LiveTree × LiveNode}
    (created : s.tree.create new = .ok result) {schedule : Schedule}
    (creates : s.schedule.Creates schedule new.id) (lastId : NodeId) :
    Untouched target tree ids { s with lastId := lastId, tree := result.1, schedule := schedule } := by
  have wf := untouched.wellFormed
  obtain ⟨parent, name, parentMem, -, split, -, -, rfl⟩ := wf.create_eq_withCreated created
  have parentOutside : ∀ old ∈ s.tree.nodes, old.id = parent.id →
      ¬ Path.Within target old.path := by
    intro old oldMem isParent within
    rw [wf.eq_of_id_eq oldMem parentMem isParent] at within
    exact apart (within.trans (Path.within_of_split split))
  refine ⟨wf.create created, fun n within => ?_, fun entry mem => ?_⟩
  · show n ∈ (s.tree.withCreated new parent name).nodes ↔ n ∈ tree.nodes
    rw [mem_withCreated, ← untouched.same n within]
    constructor
    · rintro (rfl | ⟨old, oldMem, rfl⟩)
      · exact absurd within apart
      · rw [if_neg fun isParent => parentOutside old oldMem isParent within]
        exact oldMem
    · intro nMem
      refine .inr ⟨n, nMem, ?_⟩
      rw [if_neg fun isParent => parentOutside n nMem isParent within]
  · rw [creates.content] at mem
    exact untouched.noContent entry mem

/-- Setting the content of a node outside the subtree, when `ids` names nodes of the subtree. -/
theorem setContent (untouched : Untouched target tree ids s)
    (located : ∀ id, ids id → ∃ node ∈ tree.nodes, node.id = id ∧ Path.Within target node.path)
    {node : LiveNode} (apart : ¬ Path.Within target node.path) (nodeMem : node ∈ s.tree.nodes)
    (body : ContentBody) :
    Untouched target tree ids
      { s with schedule := { s.schedule with content := s.schedule.content.set node.id body } } := by
  refine ⟨untouched.wellFormed, untouched.same, fun entry mem => ?_⟩
  rcases ContentMap.mem_set.1 mem with rfl | ⟨old, -⟩
  · intro named
    obtain ⟨other, otherMem, otherId, otherWithin⟩ := located _ named
    have same := untouched.wellFormed.eq_of_id_eq ((untouched.same other otherWithin).2 otherMem)
      nodeMem otherId
    subst same
    exact apart otherWithin
  · exact untouched.noContent entry old

/-- Events at a path that neither lies within the target nor holds it leave the subtree alone. -/
theorem stableWithin
    (located : ∀ id, ids id → ∃ node ∈ tree.nodes, node.id = id ∧ Path.Within target node.path)
    (R : Revnum) {q : String} (outside : ¬ Path.Within target q) (inside : ¬ Path.Within q target) :
    StableWithin R (Path.Within q) (Untouched target tree ids) where
  drop _ _ _ within untouched dropped := untouched.drop (within.apart inside outside) dropped
  create _ _ _ _ within untouched _ _ created creates :=
    untouched.create (within.apart inside outside) created creates _
  setContent _ _ body within untouched nodeMem _ :=
    untouched.setContent located (within.apart inside outside) nodeMem body
  located _ _ _ within untouched found := by
    rw [(untouched.wellFormed.find?_eq_some_iff.1 found).2]
    exact within
  downward _ name within := within.trans (Path.within_join name)

/-- A mirror of a source below the target survives as long as the subtree is untouched. -/
theorem mirrors (untouched : Untouched target tree ids s) (wf : tree.WellFormed) {store : Store}
    {copyRevision revision : Revnum} {source : NodeId} {order : List NodeRecord}
    {copyOf : NodeId → NodeId}
    (mirrors : Mirrors store copyRevision revision tree target source order copyOf) :
    Mirrors store copyRevision revision s.tree target source order copyOf := by
  -- Each copy is a node of the subtree, so it is still there, with its children.
  have kept : ∀ id, (id = source ∨ ∃ x ∈ order, x.id = id) →
      ∃ node ∈ tree.nodes, node ∈ s.tree.nodes ∧ node.id = copyOf id := by
    intro id inDomain
    obtain ⟨node, nodeMem, nodeId, within⟩ := mirrors.located id inDomain
    exact ⟨node, nodeMem, (untouched.same node within).2 nodeMem, nodeId⟩
  refine ⟨fun id inDomain => ?_, fun x xMem => ?_, fun id inDomain => ?_, mirrors.distinct⟩
  · obtain ⟨node, nodeMem, nodeId, within⟩ := mirrors.located id inDomain
    exact ⟨node, (untouched.same node within).2 nodeMem, nodeId, within⟩
  · obtain ⟨node, nodeMem, nodeId, rest⟩ := mirrors.copies x xMem
    obtain ⟨other, otherMem, otherKept, otherId⟩ := kept x.id (.inr ⟨x, xMem, rfl⟩)
    have same := wf.eq_of_id_eq nodeMem otherMem (nodeId.trans otherId.symm)
    subst same
    exact ⟨node, otherKept, nodeId, rest⟩
  · obtain ⟨rows, read, listed⟩ := mirrors.children id inDomain
    obtain ⟨node, nodeMem, nodeKept, nodeId⟩ := kept id inDomain
    refine ⟨rows, read, ?_⟩
    rw [← nodeId, untouched.wellFormed.childrenOf_of_mem nodeKept, ← wf.childrenOf_of_mem nodeMem,
      nodeId, listed]

end Untouched

/-! ## The copy event -/

variable {store : Store} {R : Revnum}

/-- What adding a copied directory did: created the directory under the next id, inheriting from
the source by copy, and copied what the store had below the source into it. -/
theorem run_add_copy {s s' : Ingestor} {path : String} {change : Change} {copy : CopySource}
    {source : Source} (copyFrom : change.copyFrom = some copy)
    (resolved : s.run (resolveSource store R copy) = (s, .ok source))
    (isDir : change.kind = .dir ∨ change.kind = .unknown ∧ source.kind = .dir)
    (ran : s.run (add store R path change) = (s', .ok ())) :
    ∃ created, s.tree.create
        { id := NodeId.next s.lastId, revMin := R, path := path, kind := .dir,
          predecessor := some { id := source.id, type := .copy } } = .ok created ∧
      { s with lastId := NodeId.next s.lastId, tree := created.1,
               schedule := s.schedule.create (NodeId.next s.lastId) }.run
        (deepCopy store R (store.nodeCount + 1) path source.id copy.revision) = (s', .ok ()) := by
  unfold add at ran
  simp only [copyFrom] at ran
  rw [run_bind, run_map, resolved] at ran
  dsimp only at ran
  -- The kind is a directory's, so no content is set and the copy runs.
  have copying : s.run (do
      let id ← allocate
      createNode { id := id, revMin := R, path := path, kind := .dir,
                   predecessor := some { id := source.id, type := .copy } }
      updateSchedule (·.create id)
      deepCopy store R (store.nodeCount + 1) path source.id copy.revision) = (s', .ok ()) := by
    rcases isDir with isDir | ⟨isUnknown, sourceDir⟩
    · simp only [isDir, Option.map_some, NodeKind.isFile, NodeKind.isDir, beq_self_eq_true,
        ite_true] at ran
      exact ran
    · simp only [isUnknown, sourceDir, Option.map_some, NodeKind.isFile, NodeKind.isDir,
        beq_self_eq_true, ite_true] at ran
      exact ran
  rw [run_bind, run_allocate] at copying
  dsimp only at copying
  obtain ⟨s₁, u, createRan, rest⟩ := run_bind_eq_ok.1 copying
  rw [run_createNode] at createRan
  cases creating : s.tree.create
      { id := NodeId.next s.lastId, revMin := R, path := path, kind := .dir,
        predecessor := some { id := source.id, type := .copy } } with
  | error e =>
    rw [creating] at createRan
    simp at createRan
  | ok created =>
    rw [creating] at createRan
    simp only [Prod.mk.injEq] at createRan
    obtain ⟨rfl, -⟩ := createRan
    obtain ⟨s₂, v, scheduleRan, copyRan⟩ := run_bind_eq_ok.1 rest
    simp only [run_updateSchedule, Prod.mk.injEq] at scheduleRan
    obtain ⟨rfl, -⟩ := scheduleRan
    exact ⟨created, rfl, copyRan⟩

section Copy

open History

variable {engine : Engine} {lawful : engine.Lawful} {t t₀ : Tables} {txOpen : Bool}
  {history : History}

/-- Adding a directory copied from a source the store holds puts it under the next id, inheriting
by copy and opened at `R`, with below it a mirror of what the store had below the source, the
copies taking the ids after the directory's in the order the copy read them, and no content. -/
theorem add_mirrors {s s' : Ingestor} {path : String} {change : Change} {copy : CopySource}
    {source : Source} (holds : store.Holds lawful t txOpen) (sameNodes : t.nodes = t₀.nodes)
    (records : t₀.Records history) (valid : history.Valid) (delta : Delta (current history) R s)
    (headBound : R ≤ Revnum.head)
    (copyFrom : change.copyFrom = some copy) (before : copy.revision < R)
    (resolved : s.run (resolveSource store R copy) = (s, .ok source))
    (isDir : change.kind = .dir ∨ change.kind = .unknown ∧ source.kind = .dir)
    (notRoot : path ≠ Path.root) (nonempty : path ≠ "")
    (ran : s.run (add store R path change) = (s', .ok ())) :
    ∃ top ∈ s'.tree.nodes, top.id = NodeId.next s.lastId ∧ top.path = path ∧ top.kind = .dir ∧
      top.predecessor = some { id := source.id, type := .copy } ∧ top.revMin = R ∧
      (∀ x, x ∈ copied store copy.revision (store.nodeCount + 1) source.id ↔
        Below (t.nodes.filter (·.covers copy.revision)) source.id x) ∧
      Mirrors store copy.revision R s'.tree path source.id
        (copied store copy.revision (store.nodeCount + 1) source.id)
        (copyIds (copied store copy.revision (store.nodeCount + 1) source.id) source.id top.id
          top.id) ∧
      ∀ entry ∈ s'.schedule.content, ∀ id, (id = source.id ∨
          ∃ x ∈ copied store copy.revision (store.nodeCount + 1) source.id, x.id = id) →
        copyIds (copied store copy.revision (store.nodeCount + 1) source.id) source.id top.id
          top.id id ≠ entry.1 := by
  obtain ⟨created, creating, copyRan⟩ := run_add_copy copyFrom resolved isDir ran
  have wf := delta.wellFormed
  obtain ⟨parent, name, -, -, -, freshId, -, rfl⟩ := wf.create_eq_withCreated creating
  have bounded : copy.revision ≤ Revnum.head := by
    unfold Revnum at *
    omega
  obtain ⟨copying, complete, mirrors⟩ := deepCopy_mirrors holds sameNodes records valid bounded
    (by exact wf.create creating) (by exact mem_withCreated.2 (.inl rfl)) (by rfl) (by rfl)
    notRoot nonempty copyRan
  -- The directory keeps its record through the copy.
  obtain ⟨top, topMem, topRecord⟩ := copying.kept _ (mem_withCreated.2 (.inl rfl))
  have fields := congrArg (fun record : NodeRecord =>
    (record.id, record.path, record.kind, record.predecessor, record.revMin)) topRecord
  simp only [LiveNode.toRecord, createdNode, Prod.mk.injEq] at fields
  obtain ⟨topId, topPath, topKind, topPredecessor, topRevMin⟩ := fields
  refine ⟨top, topMem, topId, topPath, topKind, topPredecessor, topRevMin, complete, ?_, ?_⟩
  · rw [topId]
    exact mirrors
  · -- Content is set only for nodes there before, and none of those takes the id of a copy.
    intro entry mem id inDomain same
    rw [copying.schedule] at mem
    obtain ⟨record, found⟩ := Option.isSome_iff_exists.1 (delta.contentLive entry mem).2
    obtain ⟨old, oldMem, oldId, -⟩ := wf.recordOf?_eq_some_iff.1 found
    rw [topId] at same
    have lengths : (copyTrace store copy.revision (store.nodeCount + 1) path source.id).length =
        (copied store copy.revision (store.nodeCount + 1) source.id).length := by
      rw [← map_copyTrace, List.length_map]
    rcases copyIds_cases (NodeId.next s.lastId) (NodeId.next s.lastId) inDomain with
      isTop | ⟨i, h, isCopy⟩
    · exact freshId old oldMem (oldId.trans (same.symm.trans isTop))
    · exact copying.fresh i (lengths ▸ h) _ (mem_withCreated.2 (.inr ⟨old, oldMem, rfl⟩))
        (oldId.trans (same.symm.trans isCopy))

end Copy

/-! ## Applying a revision -/

/-- Normalizing the paths of changes leaves the ingestor as it is and pairs each change with its
normalized path. -/
theorem run_normalizeAll :
    ∀ (changes : List Change) {s s' : Ingestor} {normalized : List (String × Change)},
      s.run (changes.mapM fun change => do
          let path ← normalize change.path
          pure (path, change)) = (s', .ok normalized) →
        s' = s ∧ normalized.map (·.2) = changes ∧
          ∀ entry ∈ normalized, Path.normalize entry.2.path = .ok entry.1
  | [], s, s', normalized, ran => by
    simp only [List.mapM_nil, run_pure, Prod.mk.injEq, Except.ok.injEq] at ran
    obtain ⟨rfl, rfl⟩ := ran
    exact ⟨rfl, rfl, fun entry mem => absurd mem List.not_mem_nil⟩
  | change :: rest, s, s', normalized, ran => by
    rw [List.mapM_cons] at ran
    obtain ⟨s₁, entry, first, ran⟩ := run_bind_eq_ok.1 ran
    obtain ⟨s₂, entries, restRan, ran⟩ := run_bind_eq_ok.1 ran
    simp only [run_pure, Prod.mk.injEq, Except.ok.injEq] at ran
    obtain ⟨rfl, rfl⟩ := ran
    rw [run_bind, run_normalize] at first
    cases normalizedPath : Path.normalize change.path with
    | error e => simp [normalizedPath, Except.mapError] at first
    | ok path =>
      simp only [normalizedPath, Except.mapError, run_pure, Prod.mk.injEq, Except.ok.injEq] at first
      obtain ⟨rfl, rfl⟩ := first
      obtain ⟨rfl, restPairs, restPaths⟩ := run_normalizeAll rest restRan
      refine ⟨rfl, by rw [List.map_cons, restPairs], fun entry mem => ?_⟩
      rcases List.mem_cons.1 mem with rfl | later
      · exact normalizedPath
      · exact restPaths entry later

/-- What a successful `apply` did: it normalized every path and applied the changes in path
order. -/
theorem run_apply_eq_ok {store : Store} {s s' : Ingestor} {changeSet : ChangeSet}
    (applied : s.run (apply store changeSet) = (s', .ok ())) :
    s.schedule.isEmpty = true ∧ ∃ normalized : List (String × Change),
      normalized.map (·.2) = changeSet.changes ∧
      (∀ entry ∈ normalized, Path.normalize entry.2.path = .ok entry.1) ∧
      { s with schedule := { s.schedule with revision := some changeSet.revision } }.run
        ((sortByPath normalized).forM fun entry =>
          applyChange store changeSet.revision entry.1 entry.2) = (s', .ok ()) := by
  unfold apply at applied
  dsimp only at applied
  rw [run_ite] at applied
  split at applied
  · simp at applied
  rw [run_bind, run_monadStateGet] at applied
  dsimp only at applied
  rw [run_ite] at applied
  split at applied
  · simp at applied
  rename_i empty
  obtain ⟨s₁, u, scheduled, rest⟩ := run_bind_eq_ok.1 applied
  simp only [run_updateSchedule, Prod.mk.injEq] at scheduled
  obtain ⟨rfl, -⟩ := scheduled
  obtain ⟨s₂, normalized, normalizing, applyRan⟩ := run_bind_eq_ok.1 rest
  obtain ⟨rfl, pairs, paths⟩ := run_normalizeAll changeSet.changes normalizing
  exact ⟨by simpa using empty, normalized, pairs, paths, applyRan⟩

theorem sortByPath_perm (changes : List (String × Change)) : (sortByPath changes).Perm changes :=
  List.mergeSort_perm changes _

/-- The order `sortByPath` sorts by is transitive. -/
theorem sortByPath_trans (a b c : String × Change) (ab : decide (a.1 ≤ b.1) = true)
    (bc : decide (b.1 ≤ c.1) = true) : decide (a.1 ≤ c.1) = true := by
  simp only [decide_eq_true_eq] at ab bc ⊢
  exact le_trans ab bc

/-- The order `sortByPath` sorts by is total. -/
theorem sortByPath_total (a b : String × Change) :
    (decide (a.1 ≤ b.1) || decide (b.1 ≤ a.1)) = true := by
  simpa using le_total a.1 b.1

/-- The changes sorted by path are in order of path. -/
theorem sortByPath_sorted (changes : List (String × Change)) :
    (sortByPath changes).Pairwise fun a b => a.1 ≤ b.1 := by
  unfold sortByPath
  simpa using List.pairwise_mergeSort sortByPath_trans sortByPath_total changes

/-- An added or replaced change that applies is at a path other than the root, and is added after
the node at its path is dropped, when it is. -/
theorem run_applyChange_adding_of {inv : Ingestor → Prop} {path : String}
    (deletes : Keeps inv (deleteTree path)) {change : Change} {s s' : Ingestor} (holds : inv s)
    (action : change.action = .added ∨ change.action = .replaced)
    (ran : s.run (applyChange store R path change) = (s', .ok ())) :
    path ≠ Path.root ∧ ∃ s₁, inv s₁ ∧ s₁.run (add store R path change) = (s', .ok ()) := by
  unfold applyChange at ran
  split at ran
  · rcases action with isAdded | isReplaced
    · simp [isAdded] at ran
    · simp [isReplaced] at ran
  rename_i notRoot
  refine ⟨notRoot, ?_⟩
  -- Dropping the node at the path first, or not, keeps the invariant.
  have adding : ∀ (dropFirst : Prop) [Decidable dropFirst],
      s.run (if dropFirst then deleteTree path >>= fun _ => add store R path change
        else add store R path change) = (s', .ok ()) →
      ∃ s₁, inv s₁ ∧ s₁.run (add store R path change) = (s', .ok ()) := by
    intro dropFirst _ ran
    split at ran
    · obtain ⟨s₁, u, deleted, added⟩ := run_bind_eq_ok.1 ran
      exact ⟨s₁, deletes s s₁ u holds deleted, added⟩
    · exact ⟨s, holds, ran⟩
  rcases action with isAdded | isReplaced
  · simp only [isAdded] at ran
    rw [run_bind, run_get] at ran
    exact adding _ ran
  · simp only [isReplaced] at ran
    exact adding True (by rwa [if_pos trivial])

/-- As `run_applyChange_adding_of`, with a stable invariant holding when the adding starts. -/
theorem run_applyChange_adding {inv : Ingestor → Prop} (stable : Stable R inv) {path : String}
    {change : Change} {s s' : Ingestor} (holds : inv s)
    (action : change.action = .added ∨ change.action = .replaced)
    (ran : s.run (applyChange store R path change) = (s', .ok ())) :
    path ≠ Path.root ∧ ∃ s₁, inv s₁ ∧ s₁.run (add store R path change) = (s', .ok ()) :=
  run_applyChange_adding_of (stable.within.keeps_deleteTree trivial) holds action ran

/-- The account is about the records of the base alone. -/
theorem Delta.of_same {base other : LiveTree} {s : Ingestor} (delta : Delta base R s)
    (same : base.Same other) : Delta other R s := by
  obtain ⟨wellFormed, kept, alive, replaced, createdNodup, notRoot, listed, outdatedBased,
    outdatedNodup, opened, contentNodup, contentLive⟩ := delta
  refine ⟨wellFormed, fun id notCreated => ?_, alive, fun id created => ?_, createdNodup, notRoot,
    listed, fun entry mem => ?_, outdatedNodup, opened, contentNodup, contentLive⟩
  · rw [← same.recordOf? id]
    exact kept id notCreated
  · rw [← same.recordOf? id]
    exact replaced id created
  · rw [← same.recordOf? entry.1]
    exact outdatedBased entry mem

/-! ## The tree a revision with a copied directory leaves -/

section Revision

open History

variable {engine : Engine} {lawful : engine.Lawful} {t t₀ : Tables} {txOpen : Bool}
  {history : History}

/-- A revision applied on top of the committed tree, with an event that adds or replaces the
directory at `target` as a copy and no other event at or below `target`, leaves the directory at
`target`, inheriting from the source by copy, and below it a mirror of everything the store had
below the source, the copies taking the ids after the directory's in the order the copy read
them, with no content set. -/
theorem apply_mirrors_copy {s s' : Ingestor} {changeSet : ChangeSet}
    {before after : List Change} {change : Change} {copy : CopySource} {target p : String}
    {source : Source} (holds : store.Holds lawful t txOpen) (sameNodes : t.nodes = t₀.nodes)
    (records : t₀.Records history) (valid : history.Valid) (same : s.tree.Same (current history))
    (wf : s.tree.WellFormed)
    (headBound : changeSet.revision ≤ Revnum.head)
    (changes : changeSet.changes = before ++ change :: after)
    (targetPath : Path.normalize change.path = .ok target)
    (action : change.action = .added ∨ change.action = .replaced)
    (copyFrom : change.copyFrom = some copy) (sourcePath : Path.normalize copy.path = .ok p)
    (positive : 1 ≤ copy.revision) (earlier : copy.revision < changeSet.revision)
    (resolved : p = Path.root ∧ source = { id := NodeId.root, kind := .dir } ∨
      p ≠ Path.root ∧ ∃ row, store.nodeAt p copy.revision = .ok (some row) ∧
        source = { id := row.id, kind := row.kind })
    (isDir : change.kind = .dir ∨ change.kind = .unknown ∧ source.kind = .dir)
    (alone : ∀ other ∈ before ++ after, ∀ q, Path.normalize other.path = .ok q →
      ¬ Path.Within target q)
    (applied : s.run (apply store changeSet) = (s', .ok ())) :
    ∃ top ∈ s'.tree.nodes, top.path = target ∧ top.kind = .dir ∧
      top.predecessor = some { id := source.id, type := .copy } ∧ top.revMin = changeSet.revision ∧
      (∀ x, x ∈ copied store copy.revision (store.nodeCount + 1) source.id ↔
        Below (t.nodes.filter (·.covers copy.revision)) source.id x) ∧
      Mirrors store copy.revision changeSet.revision s'.tree target source.id
        (copied store copy.revision (store.nodeCount + 1) source.id)
        (copyIds (copied store copy.revision (store.nodeCount + 1) source.id) source.id top.id
          top.id) ∧
      ∀ entry ∈ s'.schedule.content, ∀ id, (id = source.id ∨
          ∃ x ∈ copied store copy.revision (store.nodeCount + 1) source.id, x.id = id) →
        copyIds (copied store copy.revision (store.nodeCount + 1) source.id) source.id top.id
          top.id id ≠ entry.1 := by
  obtain ⟨empty, normalized, pairs, paths, applyRan⟩ := run_apply_eq_ok applied
  -- The change's own entry, and the others, none of them at or below the target.
  rw [changes] at pairs
  obtain ⟨first, rest, normalizedEq, firstPairs, restPairs⟩ := List.map_eq_append_iff.1 pairs
  obtain ⟨entry, last, rfl, entryChange, lastPairs⟩ := List.map_eq_cons_iff.1 restPairs
  have entryEq : entry = (target, change) := by
    have entryPath := paths entry (by rw [normalizedEq]; simp)
    rw [entryChange, targetPath] at entryPath
    exact Prod.ext (Except.ok.inj entryPath).symm entryChange
  subst entryEq
  have others : ∀ other ∈ first ++ last, ¬ Path.Within target other.1 := by
    intro other mem
    have otherChange : other.2 ∈ before ++ after := by
      rw [← firstPairs, ← lastPairs, ← List.map_append]
      exact List.mem_map_of_mem mem
    refine alone other.2 otherChange other.1 (paths other ?_)
    rw [normalizedEq]
    rcases List.mem_append.1 mem with early | late
    · exact List.mem_append_left _ early
    · exact List.mem_append_right _ (List.mem_cons_of_mem _ late)
  -- In path order, the entries after the change's lie neither within the target nor above it.
  have inSorted : (target, change) ∈ sortByPath normalized :=
    (sortByPath_perm normalized).mem_iff.2 (by rw [normalizedEq]; simp)
  obtain ⟨pre, post, sortedEq⟩ := List.append_of_mem inSorted
  have restPerm : (pre ++ post).Perm (first ++ last) := by
    have whole := (List.perm_middle.symm.trans (sortedEq ▸ sortByPath_perm normalized)).trans
      (normalizedEq ▸ List.perm_middle)
    exact whole.cons_inv
  have afterTarget : ∀ later ∈ post,
      ¬ Path.Within target later.1 ∧ ¬ Path.Within later.1 target := by
    intro later mem
    have outside := others later (restPerm.subset (List.mem_append_right _ mem))
    have sorted := sortByPath_sorted normalized
    rw [sortedEq, List.pairwise_append, List.pairwise_cons] at sorted
    have ordered : target ≤ later.1 := sorted.2.1.1 later mem
    refine ⟨outside, fun inside => ?_⟩
    have distinct : later.1 ≠ target := fun atTarget => outside (atTarget ▸ Path.Within.refl target)
    exact absurd ordered (not_le.2 (inside.lt distinct))
  -- The changes before, the change, and the changes after.
  rw [sortedEq] at applyRan
  simp only [List.forM_eq_forM, List.forM_append, List.forM_cons] at applyRan
  obtain ⟨s₁, u, preRan, ran⟩ := run_bind_eq_ok.1 applyRan
  obtain ⟨s₂, v, eventRan, postRan⟩ := run_bind_eq_ok.1 ran
  -- The account of the revision holds up to the change.
  have begun : Delta s.tree changeSet.revision
      { s with schedule := { s.schedule with revision := some changeSet.revision } } := by
    simp only [Schedule.isEmpty, Bool.and_eq_true, List.isEmpty_iff] at empty
    obtain ⟨⟨noneOutdated, noneCreated⟩, noContent⟩ := empty
    have started : Delta s.tree changeSet.revision s :=
      Delta.start wf noneCreated noneOutdated noContent
    exact started.reschedule rfl rfl rfl started.contentNodup started.contentLive
  have stable := Delta.stable s.tree changeSet.revision
  have delta₁ : Delta s.tree changeSet.revision s₁ :=
    keeps_forM (fun (entry : String × Change) _ =>
      stable.within.keeps_applyChange store trivial entry.2) _ _ _ begun
      (by simpa only [List.forM_eq_forM] using preRan)
  have delta₂ : Delta s.tree changeSet.revision s₂ :=
    stable.within.keeps_applyChange store trivial change s₁ s₂ v delta₁ eventRan
  obtain ⟨notRoot, s₃, delta₃, addRan⟩ := run_applyChange_adding stable delta₁ action eventRan
  have committed := delta₃.of_same same
  have resolving : s₃.run (resolveSource store changeSet.revision copy) = (s₃, .ok source) := by
    rcases resolved with ⟨rfl, rfl⟩ | ⟨pNotRoot, row, atNode, rfl⟩
    · exact run_resolveSource_root delta₃.wellFormed sourcePath positive earlier
    · exact run_resolveSource_of_nodeAt holds sameNodes records valid committed headBound sourcePath
        pNotRoot positive earlier atNode
  obtain ⟨top, topMem, -, topPath, topKind, topPredecessor, topRevMin, complete, mirrors,
    noContent⟩ := add_mirrors holds sameNodes records valid committed headBound copyFrom earlier
      resolving isDir notRoot (Path.ne_empty_of_normalize targetPath) addRan
  -- The changes after leave the copy alone.
  have located : ∀ id, (∃ a, (a = source.id ∨
      ∃ x ∈ copied store copy.revision (store.nodeCount + 1) source.id, x.id = a) ∧
        copyIds (copied store copy.revision (store.nodeCount + 1) source.id) source.id top.id
          top.id a = id) →
      ∃ node ∈ s₂.tree.nodes, node.id = id ∧ Path.Within target node.path := by
    rintro id ⟨a, inDomain, rfl⟩
    exact mirrors.located a inDomain
  have untouched : Untouched target s₂.tree (fun id => ∃ a, (a = source.id ∨
      ∃ x ∈ copied store copy.revision (store.nodeCount + 1) source.id, x.id = a) ∧
        copyIds (copied store copy.revision (store.nodeCount + 1) source.id) source.id top.id
          top.id a = id) s₂ :=
    ⟨delta₂.wellFormed, fun _ _ => Iff.rfl, fun entry mem found => by
      obtain ⟨a, inDomain, isCopy⟩ := found
      exact noContent entry mem a inDomain isCopy⟩
  have final := keeps_forM (fun (later : String × Change) mem =>
      (Untouched.stableWithin located changeSet.revision (afterTarget later mem).1
        (afterTarget later mem).2).keeps_applyChange store (Path.Within.refl later.1) later.2)
    _ _ _ untouched (by simpa only [List.forM_eq_forM] using postRan)
  refine ⟨top, (final.same top (topPath ▸ Path.Within.refl target)).2 topMem, topPath, topKind,
    topPredecessor, topRevMin, complete, final.mirrors delta₂.wellFormed mirrors, ?_⟩
  intro entry mem id inDomain isCopy
  exact final.noContent entry mem ⟨id, inDomain, isCopy⟩

end Revision

end Ingestor
end TreeHistory
