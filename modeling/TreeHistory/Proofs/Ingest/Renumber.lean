import Mathlib
import TreeHistory.Proofs.Ingest.Mirror
import TreeHistory.Proofs.Store.Relabel
import TreeHistory.Proofs.Tree.Edits

/-!
# Applying a revision with its ids renumbered

Two ingestors can hold the same tree and schedule except that the ids above `base` are `gap`
larger in the second, as are the ids its predecessors name (`Ingestor.Renumbered`). Against stores
holding tables and the same tables relabeled, they apply a revision alike, the second planning the
first's plan relabeled, and fail with the same error (`Ingestor.mirrors_apply`): the only error
naming an id is a taken id, and every id handed out is above every node (`Renumbered.bounded`).
-/

namespace TreeHistory

variable {f : NodeId → NodeId} {p : Option Predecessor → Option Predecessor}

/-- The predecessor a node names, following the ids renamed by `f`. -/
def Predecessor.follow (f : NodeId → NodeId) : Option Predecessor → Option Predecessor :=
  Option.map (Predecessor.rename f)

@[simp] theorem Predecessor.follow_none : Predecessor.follow f none = none := rfl

@[simp] theorem Predecessor.follow_some (predecessor : Predecessor) :
    Predecessor.follow f (some predecessor) = some (predecessor.rename f) := rfl

@[simp] theorem Predecessor.isNone_follow (predecessor : Option Predecessor) :
    (Predecessor.follow f predecessor).isNone = predecessor.isNone := by
  cases predecessor <;> rfl

/-- A copy source with its id renamed by `f`. -/
def Source.rename (f : NodeId → NodeId) (source : Source) : Source :=
  { source with id := f source.id }

/-- A created node with its record relabeled. -/
def CreatedNode.relabel (f : NodeId → NodeId) (p : Option Predecessor → Option Predecessor)
    (node : CreatedNode) : CreatedNode :=
  { node with record := node.record.relabel f p }

/-- The plan with every id it names renamed by `f` and the predecessors of the rows it creates
mapped by `p`. -/
def Plan.relabel (f : NodeId → NodeId) (p : Option Predecessor → Option Predecessor)
    (plan : Plan) : Plan :=
  { plan with outdated := plan.outdated.map fun entry => (f entry.1, entry.2),
              created := plan.created.map (CreatedNode.relabel f p),
              modified := plan.modified.map fun entry => (f entry.1, entry.2) }

theorem Plan.calls_relabel (plan : Plan) :
    (plan.relabel f p).calls = plan.calls.map (Transaction.Call.relabel f p) := by
  simp [calls, relabel, CreatedNode.relabel, Transaction.Call.relabel, List.map_flatMap,
    List.flatMap_map, Function.comp_def, Option.toList_map]

namespace Schedule

variable {tree other : LiveTree}

/-- Dropping a node reads only its id and kind. -/
theorem afterDrop_relabel (inj : Function.Injective f) (schedule : Schedule) (node : LiveNode) :
    (schedule.rename f).afterDrop (node.relabel f p) = (schedule.afterDrop node).rename f :=
  afterDrop_rename schedule inj node

theorem createdContent_relabel (inj : Function.Injective f) (content : ContentMap)
    (node : LiveNode) :
    createdContent (content.rename f) (node.relabel f (Predecessor.follow f)) =
      createdContent content node := by
  simp [createdContent, ContentMap.get?_rename inj]

theorem createdNodes_relabel (inj : Function.Injective f)
    (relabeled : tree.Relabeled f (Predecessor.follow f) other) (schedule : Schedule) :
    createdNodes other (schedule.rename f) =
      ((createdNodes tree schedule).map
        (List.map (CreatedNode.relabel f (Predecessor.follow f)))).mapError
        (IndexError.rename f) := by
  have alive : (schedule.created.map f).filter (schedule.createdSet.map f).contains =
      (schedule.created.filter schedule.createdSet.contains).map f := by
    rw [List.filter_map]
    congr 2
    funext id
    simp [inj.eq_iff]
  unfold createdNodes
  rw [rename_created, rename_createdSet, alive, List.mapM_map]
  refine Except.mapM_rename (fun id => ?_) _
  simp only [Function.comp_apply, relabeled.node? id]
  cases tree.node? id with
  | none => rfl
  | some node =>
    show Except.ok _ = Except.ok _
    rw [rename_content, createdContent_relabel inj, LiveNode.toRecord_relabel]
    rfl

/-- The renumbered schedule over the renumbered tree plans the plan relabeled. -/
theorem plan_relabel (inj : Function.Injective f)
    (relabeled : tree.Relabeled f (Predecessor.follow f) other) {schedule : Schedule} {plan : Plan}
    (planned : Schedule.plan tree schedule = .ok plan) :
    Schedule.plan other (schedule.rename f) = .ok (plan.relabel f (Predecessor.follow f)) := by
  unfold Schedule.plan at planned ⊢
  rw [createdNodes_relabel inj relabeled]
  cases made : createdNodes tree schedule with
  | error e => rw [made] at planned; cases planned
  | ok created =>
    rw [made] at planned
    simp only [bind, Except.bind, pure, Except.pure, Except.ok.injEq] at planned
    subst planned
    show Except.ok _ = Except.ok _
    congr 1
    simp [Plan.relabel, rename, ContentMap.rename, List.filter_map, Function.comp_def,
      CreatedNode.relabel, beq_rename inj]

end Schedule

/-- A refusal of `create` for a free id names no id, so no renaming changes it. -/
theorem LiveTree.WellFormed.rename_create_error {tree : LiveTree} (wf : tree.WellFormed)
    {new : NewNode} {e : TreeError} (fresh : tree.node? new.id = none)
    (failed : tree.create new = .error e) : e.rename f = e := by
  rcases wf.create_eq_error_of_fresh fresh failed with
    ⟨_, rfl⟩ | ⟨_, rfl⟩ | ⟨_, rfl⟩ | ⟨_, _, rfl⟩ <;> rfl

/-- A refusal of `drop` names no id. -/
theorem LiveTree.WellFormed.rename_drop_error {tree : LiveTree} (wf : tree.WellFormed)
    {path : String} {e : TreeError} (failed : tree.drop path = .error e) : e.rename f = e := by
  rcases wf.drop_eq_error failed with rfl | rfl | ⟨_, rfl⟩ <;> rfl

/-- Creating a node at most `top` keeps every node at most `top`. -/
theorem LiveTree.WellFormed.bounded_create {tree : LiveTree} (wf : tree.WellFormed) {top : NodeId}
    (bounded : ∀ node ∈ tree.nodes, node.id ≤ top) {new : NewNode} (below : new.id ≤ top)
    {result : LiveTree × LiveNode} (created : tree.create new = .ok result) :
    ∀ node ∈ result.1.nodes, node.id ≤ top := by
  obtain ⟨parent, name, -, -, -, -, -, rfl⟩ := wf.create_eq_withCreated created
  intro node mem
  rcases LiveTree.mem_withCreated.1 mem with rfl | ⟨old, oldMem, rfl⟩
  · exact below
  · exact bounded old oldMem

/-- Dropping a node keeps every node at most `top`. -/
theorem LiveTree.WellFormed.bounded_drop {tree : LiveTree} (wf : tree.WellFormed) {top : NodeId}
    (bounded : ∀ node ∈ tree.nodes, node.id ≤ top) {path : String}
    {result : LiveTree × LiveNode} (dropped : tree.drop path = .ok result) :
    ∀ node ∈ result.1.nodes, node.id ≤ top := by
  obtain ⟨gone, -, -, -, -, rfl⟩ := wf.drop_eq_withDropped dropped
  intro node mem
  obtain ⟨old, oldMem, -, rfl⟩ := LiveTree.mem_withDropped.1 mem
  exact bounded old oldMem

namespace Ingestor

variable {α β : Type} {base gap : NodeId}

/-- `s'` is `s` with the ids above `base` moved up by `gap`, predecessors following, and every node
of `s` at most its counter. -/
structure Renumbered (base gap : NodeId) (s s' : Ingestor) : Prop where
  low : 0 ≤ base
  nonneg : 0 ≤ gap
  tree : s.tree.Relabeled (NodeId.shift base gap) (Predecessor.follow (NodeId.shift base gap))
    s'.tree
  wellFormed : s.tree.WellFormed
  wellFormed' : s'.tree.WellFormed
  schedule : s'.schedule = s.schedule.rename (NodeId.shift base gap)
  lastId : s'.lastId = s.lastId + gap
  above : base ≤ s.lastId
  bounded : ∀ node ∈ s.tree.nodes, node.id ≤ s.lastId

namespace Renumbered

variable {s s' : Ingestor}

theorem strictMono (rel : Renumbered base gap s s') : StrictMono (NodeId.shift base gap) :=
  NodeId.shift_strictMono rel.nonneg

theorem injective (rel : Renumbered base gap s s') : Function.Injective (NodeId.shift base gap) :=
  NodeId.shift_injective rel.nonneg

theorem root (rel : Renumbered base gap s s') : NodeId.shift base gap NodeId.root = NodeId.root :=
  NodeId.shift_root rel.low

theorem lastId_le (rel : Renumbered base gap s s') : s.lastId ≤ s'.lastId := by
  have := rel.lastId
  have := rel.nonneg
  unfold NodeId at *
  omega

theorem lastId_nonneg (rel : Renumbered base gap s s') : 0 ≤ s.lastId :=
  le_trans rel.low rel.above

/-- Renumbered ingestors stay renumbered when only the schedules change, alike. -/
theorem with_schedule (rel : Renumbered base gap s s') {schedule : Schedule} :
    Renumbered base gap { s with schedule := schedule }
      { s' with schedule := schedule.rename (NodeId.shift base gap) } :=
  { rel with schedule := rfl }

end Renumbered

/-! ## The primitive steps -/

/-- A change of schedule mirrors itself when it commutes with renaming, which it may need the
renaming to keep the order of ids for. -/
theorem mirrors_updateSchedule {change change' : Schedule → Schedule}
    (commutes : 0 ≤ gap → ∀ schedule, change' (schedule.rename (NodeId.shift base gap)) =
      (change schedule).rename (NodeId.shift base gap)) :
    Mirrors (Renumbered base gap) 0 (updateSchedule change) (updateSchedule change') id := by
  intro s s' rel _
  rw [run_updateSchedule, run_updateSchedule]
  refine ⟨?_, lastId_le_add _ _, rfl⟩
  have moved : Renumbered base gap { s with schedule := change s.schedule }
      { s' with schedule := (change s.schedule).rename (NodeId.shift base gap) } :=
    rel.with_schedule
  rwa [← commutes rel.nonneg, ← rel.schedule] at moved

/-- Below the largest id, the second counter hands out the first's id moved up. -/
theorem mirrors_allocate :
    Mirrors (Renumbered base gap) 1 allocate allocate (NodeId.shift base gap) := by
  intro s s' rel room
  have nonneg := rel.lastId_nonneg
  have own : NodeId.next s.lastId = s.lastId + 1 :=
    NodeId.next_of_lt nonneg (by have := rel.lastId_le; unfold NodeId at *; omega)
  have other : NodeId.next s'.lastId = s.lastId + 1 + gap := by
    rw [NodeId.next_of_lt (le_trans nonneg rel.lastId_le) (by unfold NodeId at *; omega),
      rel.lastId]
    unfold NodeId
    omega
  rw [run_allocate, run_allocate]
  refine ⟨{ rel with lastId := ?_, above := ?_, bounded := ?_ }, ?_, ?_⟩
  · simp only [own, other]
  · simp only [own]
    have := rel.above
    unfold NodeId at *
    omega
  · intro node mem
    simp only [own]
    have := rel.bounded node mem
    unfold NodeId at *
    omega
  · show NodeId.next s'.lastId ≤ s'.lastId + ((1 : Nat) : Int)
    rw [other, rel.lastId]
    unfold NodeId
    omega
  · simp only [own, other]
    show Except.ok (s.lastId + 1 + gap) = Except.ok (NodeId.shift base gap (s.lastId + 1))
    have above := rel.above
    rw [NodeId.shift_of_lt (by unfold NodeId at *; omega)]

/-- Creating a node with an id above every node of the tree, at most the counter, mirrors
creating it relabeled. -/
theorem mirrorsFrom_createNode {s s' : Ingestor} (rel : Renumbered base gap s s') (new : NewNode)
    (fresh : ∀ node ∈ s.tree.nodes, node.id < new.id) (counted : new.id ≤ s.lastId) :
    MirrorsFrom (Renumbered base gap) s s' 0 (createNode new)
      (createNode (new.relabel (NodeId.shift base gap) (Predecessor.follow (NodeId.shift base gap))))
      id := by
  intro _
  rw [run_createNode, run_createNode]
  have renames := rel.tree.create rel.injective new
  have absent : s.tree.node? new.id = none :=
    LiveTree.node?_eq_none_iff.2 fun node mem => ne_of_lt (fresh node mem)
  cases created : s.tree.create new with
  | error e =>
    rw [created] at renames
    simp only [LiveTree.Renames] at renames
    rw [renames, rel.wellFormed.rename_create_error absent created]
    exact ⟨rel, lastId_le_add _ _, rfl⟩
  | ok result =>
    rw [created] at renames
    obtain ⟨result', created', relabeled, -⟩ := renames
    rw [created']
    exact ⟨{ rel with
      tree := relabeled
      wellFormed := rel.wellFormed.create created
      wellFormed' := rel.wellFormed'.create created'
      bounded := rel.wellFormed.bounded_create rel.bounded counted created },
      lastId_le_add _ _, rfl⟩

/-- Handing out an id and creating a node with it mirrors itself. -/
theorem mirrors_create {new new' : NodeId → NewNode} (named : ∀ id, (new id).id = id)
    (relabels : ∀ id, new' (NodeId.shift base gap id) =
      (new id).relabel (NodeId.shift base gap) (Predecessor.follow (NodeId.shift base gap)))
    {change change' : NodeId → Schedule → Schedule}
    (commutes : 0 ≤ gap → ∀ id schedule, change' (NodeId.shift base gap id)
      (schedule.rename (NodeId.shift base gap)) = (change id schedule).rename (NodeId.shift base gap))
    {rest rest' : NodeId → IngestM β} {h : β → β} {cost : Nat}
    (restMirrors : ∀ id, Mirrors (Renumbered base gap) cost (rest id)
      (rest' (NodeId.shift base gap id)) h) :
    Mirrors (Renumbered base gap) (1 + cost) (do
      let id ← allocate
      createNode (new id)
      updateSchedule (change id)
      rest id) (do
      let id ← allocate
      createNode (new' id)
      updateSchedule (change' id)
      rest' id) h := by
  intro s s' rel room
  refine MirrorsFrom.bind (mirrors_allocate s s' rel) (fun s₁ s₁' id ran rel₁ => ?_) room
  -- The id handed out is one above the counter, which every node is at most.
  rw [run_allocate, Prod.mk.injEq, Except.ok.injEq] at ran
  obtain ⟨rfl, rfl⟩ := ran
  have stepped : NodeId.next s.lastId = s.lastId + 1 :=
    NodeId.next_of_lt rel.lastId_nonneg (by have := rel.lastId_le; unfold NodeId at *; omega)
  have fresh : ∀ node ∈ s.tree.nodes, node.id < (new (NodeId.next s.lastId)).id := by
    intro node mem
    rw [named, stepped]
    have := rel.bounded node mem
    unfold NodeId at *
    omega
  rw [relabels, ← Nat.zero_add cost]
  exact MirrorsFrom.bind (mirrorsFrom_createNode rel₁ _ fresh (le_of_eq (named _)))
    fun s₂ s₂' _ _ rel₂ =>
      ((mirrors_updateSchedule fun nonneg => commutes nonneg _).bind_free fun _ =>
        restMirrors _) s₂ s₂' rel₂

/-! ## Copy sources -/

section
variable {store store' : Store}
  (relabels : store.Relabels (NodeId.shift base gap) (Predecessor.follow (NodeId.shift base gap))
    store')
include relabels

/-- A copy source is resolved alike: a node of the live tree, or a row of the store, renamed on
the second side. -/
theorem mirrors_resolveSource (R : Revnum) (copy : CopySource) :
    Mirrors (Renumbered base gap) 0 (resolveSource store R copy) (resolveSource store' R copy)
      (Source.rename (NodeId.shift base gap)) := by
  refine mirrors_of_run (fun s => run_resolveSource s store R copy)
    (fun s => run_resolveSource s store' R copy) fun s s' rel => ?_
  unfold resolveSource
  simp only [run_bind, run_normalize, run_ite, run_get, run_throw]
  cases Path.normalize copy.path with
  | error e => rfl
  | ok path =>
    simp only [Except.mapError_ok]
    split
    · rfl
    -- Past its checks, a source the store gives is read relabeled from the second store.
    have lookup : ∀ next : Option NodeRecord → IngestM Source,
        (∀ (found : Option NodeRecord) (t t' : Ingestor),
          (t'.run (next (found.map (NodeRecord.relabel (NodeId.shift base gap)
            (Predecessor.follow (NodeId.shift base gap)))))).2 =
            (t.run (next found)).2.map (Source.rename (NodeId.shift base gap))) →
        ∀ t t' : Ingestor, (t'.run (ofStore (store'.lookupPath path copy.revision) >>= next)).2 =
          (t.run (ofStore (store.lookupPath path copy.revision) >>= next)).2.map
            (Source.rename (NodeId.shift base gap)) := by
      intro next each t t'
      rw [run_bind, run_bind, run_ofStore, run_ofStore, relabels.lookupPath]
      cases store.lookupPath path copy.revision with
      | error e => rfl
      | ok found => exact each found t t'
    rw [rel.tree.find? path]
    cases s.tree.find? path with
    | none =>
      refine lookup _ (fun found t t' => ?_) s s'
      cases found with
      | none => rfl
      | some record =>
        by_cases covers : record.covers copy.revision = true <;>
          simp only [Option.map_some, NodeRecord.relabel_covers, covers] <;> rfl
    | some node =>
      simp only [Option.map_some, LiveNode.relabel_revMin]
      by_cases older : node.revMin ≤ copy.revision
      · simp only [older, if_true, LiveNode.relabel_id, LiveNode.relabel_kind]
        rfl
      · simp only [older, if_false]
        refine lookup _ (fun found t t' => ?_) s s'
        cases found with
        | none => rfl
        | some record =>
          by_cases covers : record.covers copy.revision = true <;>
            simp only [Option.map_some, NodeRecord.relabel_covers, covers] <;> rfl

end

/-! ## Deleting a subtree and setting content -/

theorem mirrors_delete :
    ∀ fuel path, Mirrors (Renumbered base gap) 0 (delete fuel path) (delete fuel path) id
  | 0, _ => mirrors_pure () id
  | fuel + 1, path => by
    rw [delete]
    refine mirrors_get_bind fun s s' rel => ?_
    -- The children are listed alike and deleted first, each by the shorter deletion.
    refine Mirrors.bind_free (mirrors_ofTree (g := id) ?_) (fun children => ?_) s s' rel
    · rw [rel.tree.childPaths path]
      cases s.tree.childPaths path <;> rfl
    refine Mirrors.bind_free (mirrors_forM_free fun child _ => mirrors_delete fuel child)
      fun _ => ?_
    refine mirrors_get_bind fun s₁ s₁' rel₁ _ => ?_
    simp only [run_bind, run_ofTree]
    have renames := rel₁.tree.drop rel₁.injective rel₁.root path
    cases dropped : s₁.tree.drop path with
    | error e =>
      rw [dropped] at renames
      simp only [LiveTree.Renames] at renames
      rw [renames, rel₁.wellFormed.rename_drop_error dropped]
      exact ⟨rel₁, lastId_le_add _ _, rfl⟩
    | ok result =>
      rw [dropped] at renames
      obtain ⟨result', dropped', relabeled, node'⟩ := renames
      rw [dropped']
      obtain ⟨tree, node⟩ := result
      obtain ⟨tree', _⟩ := result'
      dsimp only at node' relabeled ⊢
      subst node'
      refine ⟨{ rel₁ with
        tree := relabeled
        wellFormed := rel₁.wellFormed.drop dropped
        wellFormed' := rel₁.wellFormed'.drop dropped'
        schedule := ?_
        bounded := rel₁.wellFormed.bounded_drop rel₁.bounded dropped },
        lastId_le_add _ _, rfl⟩
      show s₁'.schedule.afterDrop (node.relabel _ _) = (s₁.schedule.afterDrop node).rename _
      rw [rel₁.schedule, Schedule.afterDrop_relabel rel₁.injective]

theorem mirrors_deleteTree (path : String) :
    Mirrors (Renumbered base gap) 0 (deleteTree path) (deleteTree path) id := by
  unfold deleteTree
  refine mirrors_get_bind fun s s' rel => ?_
  -- Both trees index as many paths, so both deletions have the same depth to go.
  rw [rel.tree.paths_length rel.wellFormed rel.wellFormed']
  exact mirrors_delete _ path s s' rel

theorem mirrors_modifyFile (path : String) (change : Change) :
    Mirrors (Renumbered base gap) 0 (modifyFile path change) (modifyFile path change) id := by
  unfold modifyFile
  refine mirrors_get_bind fun s s' rel => ?_
  refine Mirrors.bind_free (mirrors_ofTree (rel.tree.get path)) (fun node => ?_) s s' rel
  simp only [LiveNode.relabel_kind, LiveNode.relabel_id]
  refine Mirrors.ite (mirrors_updateSchedule ?_) (mirrors_pure () id)
  exact fun nonneg schedule => setContent_rename nonneg node.id _ schedule

/-! ## Copying a directory out of the store -/

section
variable {store store' : Store}
  (relabels : store.Relabels (NodeId.shift base gap) (Predecessor.follow (NodeId.shift base gap))
    store')
include relabels

/-- A copy out of the store hands out one id per row it reads on both sides. -/
theorem mirrors_deepCopy (R copyRevision : Revnum) :
    ∀ fuel target source, Mirrors (Renumbered base gap) (copyCount store copyRevision fuel source)
      (deepCopy store R fuel target source copyRevision)
      (deepCopy store' R fuel target (NodeId.shift base gap source) copyRevision) id
  | 0, _, _ => mirrors_pure () id
  | fuel + 1, target, source => by
    rw [deepCopy, deepCopy, copyCount, relabels.children]
    cases store.children source copyRevision with
    | error e => exact mirrors_of_run (fun s => rfl) (fun s => rfl) fun s s' _ => rfl
    | ok children =>
      have read : ∀ rows : List NodeRecord,
          (ofStore (.ok rows) : IngestM (List NodeRecord)) = pure rows := fun _ => rfl
      have listedRows : (Except.ok children : Except StoreError _).toOption.getD [] = children :=
        rfl
      simp only [Except.map]
      rw [read, read, pure_bind, pure_bind, listedRows]
      refine mirrors_forM fun child _ => ?_
      -- Each row is copied under a new id, and a directory's rows below it.
      refine Mirrors.mono ?_ (le_of_eq (Nat.add_comm _ _))
      refine mirrors_create (fun _ => rfl) (fun _ => rfl) ?_ ?_
      · intro _ newId schedule
        simp [Schedule.create, Schedule.rename]
      · exact fun _ => Mirrors.ite_cost (mirrors_deepCopy R copyRevision fuel _ _)
          (mirrors_pure () id)

variable {N : Nat} (copies : CopiesWithin store N)
include copies

theorem mirrors_add (R : Revnum) (path : String) (change : Change) :
    Mirrors (Renumbered base gap) (N + 1) (add store R path change) (add store' R path change)
      id := by
  obtain ⟨changePath, action, kind, copyFrom, data⟩ := change
  unfold add
  dsimp only
  -- The source is looked up alike on both sides, renamed on the second.
  cases copyFrom <;> dsimp only
  on_goal 1 =>
    refine Mirrors.bind_free
      (mirrors_pure none (Option.map (Source.rename (NodeId.shift base gap)))) fun source => ?_
  on_goal 2 =>
    refine Mirrors.bind_free ((mirrors_resolveSource relabels R _).map some
      (Option.map (Source.rename (NodeId.shift base gap))) fun _ => rfl) fun source => ?_
  all_goals
    cases source <;> cases kind <;> dsimp only [Option.map_some, Option.map_none, Source.rename]
  -- Then the node takes the next id, and only a copied directory hands out more.
  all_goals
    refine Mirrors.mono ?_ (le_of_eq (Nat.add_comm _ _))
    refine mirrors_create (fun _ => rfl) (fun _ => rfl)
      (fun _ newId schedule => Schedule.create_rename schedule newId) fun newId => ?_
    -- A file's content is set under its id, then a copied directory's rows are copied.
    refine Mirrors.ite ((mirrors_updateSchedule fun nonneg schedule =>
      setContent_rename nonneg newId _ schedule).bind_free fun _ => ?_) ?_
  all_goals
    first
    | exact (mirrors_pure () id).mono (Nat.zero_le N)
    | refine Mirrors.ite ?_ ((mirrors_pure () id).mono (Nat.zero_le N))
      rw [relabels.nodeCount]
      exact (mirrors_deepCopy relabels R _ _ _ _).mono (copies _ _)

theorem mirrors_applyChange (R : Revnum) (path : String) (change : Change) :
    Mirrors (Renumbered base gap) (N + 1) (applyChange store R path change)
      (applyChange store' R path change) id := by
  unfold applyChange
  split
  · split
    · exact (mirrors_pure () id).mono (Nat.zero_le _)
    · exact (mirrors_throw _ id).mono (Nat.zero_le _)
  · split
    · exact (mirrors_modifyFile path change).mono (Nat.zero_le _)
    · exact (mirrors_deleteTree path).mono (Nat.zero_le _)
    · refine mirrors_get_bind fun s s' rel => ?_
      -- Both sides see a node the revision's copies made at the path, or neither does.
      rw [rel.tree.find? path, rel.schedule]
      cases s.tree.find? path with
      | none => exact mirrors_add relabels copies R path change s s' rel
      | some node =>
        have listed : (s.schedule.rename (NodeId.shift base gap)).synthesized.contains
            (node.relabel (NodeId.shift base gap) (Predecessor.follow (NodeId.shift base gap))).id =
              s.schedule.synthesized.contains node.id := by
          simp [rel.injective.eq_iff]
        simp only [Option.map_some, listed]
        exact Mirrors.ite ((mirrors_deleteTree path).bind_free fun _ =>
          mirrors_add relabels copies R path change) (mirrors_add relabels copies R path change)
          s s' rel
    · exact (mirrors_deleteTree path).bind_free fun _ => mirrors_add relabels copies R path change

/-- Applying a change set mirrors itself while the second counter has room for `N + 1` ids a
change. -/
theorem mirrors_apply (changeSet : ChangeSet) :
    Mirrors (Renumbered base gap) (changeSet.changes.length * (N + 1)) (apply store changeSet)
      (apply store' changeSet) id := by
  -- A refusal is the same error on both sides.
  have refused : ∀ (e : IndexError) (rest rest' : PUnit → IngestM PUnit),
      Mirrors (Renumbered base gap) (changeSet.changes.length * (N + 1))
        (throw e >>= rest) (throw e >>= rest') id := fun e rest rest' =>
    (mirrors_of_run (fun s => rfl) (fun s => rfl) fun s s' _ => rfl).mono (Nat.zero_le _)
  unfold apply
  dsimp only
  refine Mirrors.ite (refused _ _ _) (mirrors_get_bind fun s s' rel => ?_)
  rw [rel.schedule, Schedule.isEmpty_rename]
  split
  · exact refused _ _ _ s s' rel
  rw [← Nat.zero_add (changeSet.changes.length * (N + 1))]
  refine (mirrors_updateSchedule ?_).bind_free (fun _ s₁ s₁' rel₁ => ?_) s s' rel
  · exact fun _ schedule => rfl
  rw [← Nat.zero_add (changeSet.changes.length * (N + 1))]
  refine MirrorsFrom.bind ((mirrors_mapM fun change _ =>
      (mirrors_normalize change.path).bind_free fun path => mirrors_pure (path, change) id) s₁ s₁' rel₁)
    (fun s₂ s₂' normalized normalizing rel₂ => ?_)
  -- Each change, in order of path, costs at most `N + 1` ids.
  have counted : changeSet.changes.length * (N + 1) =
      ((sortByPath normalized).map fun _ => N + 1).sum := by
    rw [List.map_const', List.sum_replicate, sortByPath, List.length_mergeSort,
      length_of_run_mapM normalizing, smul_eq_mul]
  rw [counted, Nat.zero_add, id_eq]
  exact mirrors_forM_same
    (fun (x : String × Change) _ => mirrors_applyChange relabels copies _ x.1 x.2) s₂ s₂' rel₂

end

/-- Taking the plan, when the first schedule makes one, gives the plan relabeled, and starts two
empty schedules. -/
theorem mirrorsFrom_takePlan {s s' : Ingestor} (rel : Renumbered base gap s s') {plan : Plan}
    (planned : Schedule.plan s.tree s.schedule = .ok plan) :
    MirrorsFrom (Renumbered base gap) s s' 0 takePlan takePlan
      (Plan.relabel (NodeId.shift base gap) (Predecessor.follow (NodeId.shift base gap))) := by
  intro _
  have planned' := Schedule.plan_relabel rel.injective rel.tree planned
  rw [← rel.schedule] at planned'
  rw [run_takePlan_of_plan planned, run_takePlan_of_plan planned']
  exact ⟨rel.with_schedule, lastId_le_add _ _, rfl⟩

end Ingestor

end TreeHistory
