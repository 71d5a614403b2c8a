import TreeHistory.Proofs.Ingest.Steps
import TreeHistory.Proofs.Tree.WellFormed
import TreeHistory.Proofs.Tree.Within

/-!
# What survives applying a revision

Besides stamping the schedule, `apply` changes an ingestor in three ways only: it drops a
childless node, creates a node under the next id, and sets the content of a live file. `Stable R
inv` asks an invariant to survive each of them; then it survives a successful `apply`
(`Stable.of_apply`). `StableWithin R region inv` asks the same at the paths of a region; then it
survives the change of every path of the region (`StableWithin.keeps_applyChange`).
-/

namespace TreeHistory

namespace Schedule

/-- The schedule after dropping `node`: its content is unset, and it is forgotten if the revision
created it, else outdated. -/
def afterDrop (schedule : Schedule) (node : LiveNode) : Schedule :=
  let (schedule, wasCreated) :=
    ({ schedule with content := schedule.content.erase node.id } : Schedule).discard node.id
  if wasCreated then schedule
  else { schedule with outdated := schedule.outdated ++ [(node.id, node.kind)] }

section
variable (schedule : Schedule) (node : LiveNode)

/-- Dropping a node the revision created forgets it. -/
theorem afterDrop_of_mem (created : node.id ∈ schedule.createdSet) :
    schedule.afterDrop node = { schedule with
      content := schedule.content.erase node.id, createdSet := schedule.createdSet.erase node.id,
      synthesized := schedule.synthesized.erase node.id, discarded := schedule.discarded + 1 } := by
  simp [afterDrop, discard, created]

/-- Dropping any other node outdates it. -/
theorem afterDrop_of_not_mem (notCreated : node.id ∉ schedule.createdSet) :
    schedule.afterDrop node = { schedule with
      content := schedule.content.erase node.id,
      outdated := schedule.outdated ++ [(node.id, node.kind)] } := by
  simp [afterDrop, discard, notCreated]

@[simp] theorem afterDrop_created : (schedule.afterDrop node).created = schedule.created := by
  by_cases created : node.id ∈ schedule.createdSet
  · rw [afterDrop_of_mem schedule node created]
  · rw [afterDrop_of_not_mem schedule node created]

@[simp] theorem afterDrop_createdSet :
    (schedule.afterDrop node).createdSet = schedule.createdSet.erase node.id := by
  by_cases created : node.id ∈ schedule.createdSet
  · rw [afterDrop_of_mem schedule node created]
  · rw [afterDrop_of_not_mem schedule node created, List.erase_of_not_mem created]

@[simp] theorem afterDrop_outdated : (schedule.afterDrop node).outdated =
    if node.id ∈ schedule.createdSet then schedule.outdated
    else schedule.outdated ++ [(node.id, node.kind)] := by
  by_cases created : node.id ∈ schedule.createdSet
  · rw [afterDrop_of_mem schedule node created, if_pos created]
  · rw [afterDrop_of_not_mem schedule node created, if_neg created]

@[simp] theorem afterDrop_content :
    (schedule.afterDrop node).content = schedule.content.erase node.id := by
  by_cases created : node.id ∈ schedule.createdSet
  · rw [afterDrop_of_mem schedule node created]
  · rw [afterDrop_of_not_mem schedule node created]

@[simp] theorem afterDrop_discarded : (schedule.afterDrop node).discarded =
    if node.id ∈ schedule.createdSet then schedule.discarded + 1 else schedule.discarded := by
  by_cases created : node.id ∈ schedule.createdSet
  · rw [afterDrop_of_mem schedule node created, if_pos created]
  · rw [afterDrop_of_not_mem schedule node created, if_neg created]

end

/-- `after` is `before` with `id` recorded as created, nothing else counted changing. -/
structure Creates (before after : Schedule) (id : NodeId) : Prop where
  created : after.created = before.created ++ [id]
  createdSet : after.createdSet = before.createdSet ++ [id]
  outdated : after.outdated = before.outdated
  content : after.content = before.content
  discarded : after.discarded = before.discarded

end Schedule

namespace Ingestor

open LiveTree

variable {α : Type} {R : Revnum} {inv : Ingestor → Prop}

/-- The changes `apply` makes for revision `R`, each keeping `inv`. -/
structure Stable (R : Revnum) (inv : Ingestor → Prop) : Prop where
  /-- Dropping a childless node and recording the drop. -/
  drop : ∀ s path dropped, inv s → s.tree.drop path = .ok dropped →
    inv { s with tree := dropped.1, schedule := s.schedule.afterDrop dropped.2 }
  /-- Creating a node that opens at `R` under the next id, and recording it as created. -/
  create : ∀ s (new : NewNode) created schedule, inv s → new.id = NodeId.next s.lastId →
    new.revMin = R → s.tree.create new = .ok created → s.schedule.Creates schedule new.id →
    inv { s with lastId := NodeId.next s.lastId, tree := created.1, schedule := schedule }
  /-- Setting the content of a live file. -/
  setContent : ∀ s (node : LiveNode) body, inv s → node ∈ s.tree.nodes → node.kind = .file →
    inv { s with schedule := { s.schedule with content := s.schedule.content.set node.id body } }

/-- The changes `apply` makes for revision `R` at paths of `region`, each keeping `inv`. -/
structure StableWithin (R : Revnum) (region : String → Prop) (inv : Ingestor → Prop) : Prop where
  /-- Dropping a childless node of the region and recording the drop. -/
  drop : ∀ s path dropped, region path → inv s → s.tree.drop path = .ok dropped →
    inv { s with tree := dropped.1, schedule := s.schedule.afterDrop dropped.2 }
  /-- Creating a node of the region that opens at `R` under the next id, and recording it. -/
  create : ∀ s (new : NewNode) created schedule, region new.path → inv s →
    new.id = NodeId.next s.lastId → new.revMin = R → s.tree.create new = .ok created →
    s.schedule.Creates schedule new.id →
    inv { s with lastId := NodeId.next s.lastId, tree := created.1, schedule := schedule }
  /-- Setting the content of a live file of the region. -/
  setContent : ∀ s (node : LiveNode) body, region node.path → inv s → node ∈ s.tree.nodes →
    node.kind = .file →
    inv { s with schedule := { s.schedule with content := s.schedule.content.set node.id body } }
  /-- The node the tree finds at a path of the region has that path. -/
  located : ∀ s path (node : LiveNode), region path → inv s → s.tree.find? path = some node →
    region node.path
  /-- The children of a path of the region are in it. -/
  downward : ∀ path name, region path → region (Path.join path name)

/-- A stable invariant is stable within the region of every path. -/
theorem Stable.within (stable : Stable R inv) : StableWithin R (fun _ => True) inv where
  drop s path dropped _ := stable.drop s path dropped
  create s new created schedule _ := stable.create s new created schedule
  setContent s node body _ := stable.setContent s node body
  located _ _ _ _ _ _ := trivial
  downward _ _ _ := trivial

/-- Steps that read the ingestor first keep an invariant when, from every ingestor holding it,
what follows keeps it. -/
theorem keeps_get_bind_of {f : Ingestor → IngestM α} (rest : ∀ s, inv s → Keeps inv (f s)) :
    Keeps inv (get >>= f) :=
  keeps_get_bind fun s s' a holds ran => rest s holds s s' a holds ran

/-- A tree result that is passed on keeps an invariant when each value it may pass does. -/
theorem keeps_ofTree_bind {result : Except TreeError α} {β : Type} {f : α → IngestM β}
    (rest : ∀ a, result = .ok a → Keeps inv (f a)) : Keeps inv (ofTree result >>= f) := by
  cases result with
  | error e =>
    intro s s' b holds ran
    simp [ofTree] at ran
  | ok a =>
    show Keeps inv (pure a >>= f)
    rw [pure_bind]
    exact rest a rfl

namespace StableWithin

variable {region : String → Prop} (stable : StableWithin R region inv)
include stable

/-- The paths of the children of a node of the region are in it. -/
theorem childPaths_within {s : Ingestor} {path : String} {children : List String} (holds : inv s)
    (within : region path) (listed : s.tree.childPaths path = .ok children) :
    ∀ child ∈ children, region child := by
  unfold LiveTree.childPaths at listed
  cases found : s.tree.get path with
  | error e => simp [found, bind, Except.bind] at listed
  | ok node =>
    simp only [found, bind, Except.bind, pure, Except.pure, Except.ok.injEq] at listed
    intro child mem
    rw [← listed] at mem
    obtain ⟨entry, -, rfl⟩ := List.mem_map.1 mem
    exact stable.downward _ _ (stable.located s path node within holds (get_eq_ok_iff.1 found))

/-- Handing out an id, creating a node of the region with it and recording it keeps a stable
invariant. -/
theorem keeps_create {new : NodeId → NewNode} (ids : ∀ id, (new id).id = id)
    (opensAt : ∀ id, (new id).revMin = R) (inRegion : ∀ id, region (new id).path)
    {change : NodeId → Schedule → Schedule}
    (creates : ∀ id (schedule : Schedule), schedule.Creates (change id schedule) id)
    {rest : NodeId → IngestM α}
    (restKeeps : ∀ id s s' a, inv s →
      (∃ node ∈ s.tree.nodes, node.id = id ∧ node.kind = (new id).kind ∧
        node.path = (new id).path) →
      s.run (rest id) = (s', .ok a) → inv s') :
    Keeps inv (do
      let id ← allocate
      createNode (new id)
      updateSchedule (change id)
      rest id) := by
  intro s s' a holds ran
  rw [run_bind, run_allocate] at ran
  dsimp only at ran
  obtain ⟨s₁, u, createRan, ran⟩ := run_bind_eq_ok.1 ran
  rw [run_createNode] at createRan
  cases created : s.tree.create (new (NodeId.next s.lastId)) with
  | error e =>
    rw [created] at createRan
    simp at createRan
  | ok result =>
    rw [created] at createRan
    simp only [Prod.mk.injEq] at createRan
    obtain ⟨rfl, -⟩ := createRan
    obtain ⟨s₂, v, scheduleRan, restRan⟩ := run_bind_eq_ok.1 ran
    simp only [run_updateSchedule, Prod.mk.injEq] at scheduleRan
    obtain ⟨rfl, -⟩ := scheduleRan
    have recorded : s.schedule.Creates (change (NodeId.next s.lastId) s.schedule)
        (new (NodeId.next s.lastId)).id := by
      rw [ids]
      exact creates _ _
    refine restKeeps _ _ _ _ (stable.create s _ result _ (inRegion _) holds (ids _) (opensAt _)
      created recorded) ?_ restRan
    -- The node `create` appends is the one made from `new`.
    obtain ⟨-, name, parent, tree₁, -, -, -, -, -, rfl⟩ := create_eq_ok created
    exact ⟨createdNode _ parent.id name, by simp, ids _, rfl, rfl⟩

theorem keeps_deepCopy (store : Store) :
    ∀ fuel target source copyRevision, region target →
      Keeps inv (deepCopy store R fuel target source copyRevision)
  | 0, _, _, _, _ => keeps_pure ()
  | fuel + 1, target, source, copyRevision, within => by
    rw [deepCopy]
    refine Keeps.bind (keeps_of_run fun s => by simp) fun children => keeps_forM fun child _ => ?_
    dsimp only
    -- Each copy is made at a child path of the target, and what is below it below that path.
    have below : region (Path.join target child.name) := stable.downward _ _ within
    refine stable.keeps_create ?_ ?_ ?_ ?_ fun id s s' a holds _ ran =>
      Keeps.ite (keeps_deepCopy store fuel _ _ _ below) (keeps_pure ()) s s' a holds ran
    · intro id
      rfl
    · intro id
      rfl
    · intro id
      exact below
    · intro id schedule
      exact ⟨rfl, rfl, rfl, rfl, rfl⟩

theorem keeps_delete : ∀ fuel path, region path → Keeps inv (delete fuel path)
  | 0, _, _ => keeps_pure ()
  | fuel + 1, path, within => by
    rw [delete]
    refine keeps_get_bind_of fun s₀ holds₀ => keeps_ofTree_bind fun children listed => ?_
    -- The children are deleted first, each within the path.
    have childrenWithin := stable.childPaths_within holds₀ within listed
    refine Keeps.bind (keeps_forM fun child mem => keeps_delete fuel child (childrenWithin child mem))
      fun _ => ?_
    refine keeps_get_bind fun s s' u holds ran => ?_
    obtain ⟨s₁, dropped, dropRan, setRan⟩ := run_bind_eq_ok.1 ran
    simp only [run_ofTree, Prod.mk.injEq] at dropRan
    obtain ⟨rfl, dropRan⟩ := dropRan
    have dropping : s.tree.drop path = .ok dropped := by
      cases result : s.tree.drop path <;> simp_all
    simp only [run_set, Prod.mk.injEq] at setRan
    obtain ⟨rfl, -⟩ := setRan
    exact stable.drop s path dropped within holds dropping

theorem keeps_deleteTree {path : String} (within : region path) : Keeps inv (deleteTree path) := by
  unfold deleteTree
  exact Keeps.bind (keeps_of_run fun s => rfl) fun s => stable.keeps_delete _ path within

theorem keeps_modifyFile {path : String} (within : region path) (change : Change) :
    Keeps inv (modifyFile path change) := by
  unfold modifyFile
  refine keeps_get_bind fun s s' u holds ran => ?_
  obtain ⟨s₁, node, found, ran⟩ := run_bind_eq_ok.1 ran
  simp only [run_ofTree, Prod.mk.injEq] at found
  obtain ⟨rfl, found⟩ := found
  -- The file whose content is set is the live node at the path.
  have got : s.tree.get path = .ok node := by
    cases getting : s.tree.get path <;> simp_all
  have nodeMem : node ∈ s.tree.nodes := by
    have found := get_eq_ok_iff.1 got
    unfold LiveTree.find? LiveTree.node? at found
    obtain ⟨id, -, listed⟩ := Option.bind_eq_some_iff.1 found
    exact List.mem_of_find?_eq_some listed
  have nodeWithin := stable.located s path node within holds (get_eq_ok_iff.1 got)
  split at ran
  · rename_i isFile
    simp only [run_updateSchedule, Prod.mk.injEq] at ran
    obtain ⟨rfl, -⟩ := ran
    exact stable.setContent s node _ nodeWithin holds nodeMem (by simpa [NodeKind.isFile] using isFile)
  · simp only [run_pure, Prod.mk.injEq] at ran
    exact ran.1 ▸ holds

/-- Setting the content of a new file of the region, then running steps that keep a stable
invariant, keeps it. -/
theorem keeps_setContent_then {id : NodeId} {kind : NodeKind} {path : String} (within : region path)
    {c : Prop} [Decidable c] (file : c → kind = .file) {body : ContentBody} {rest : IngestM α}
    (restKeeps : Keeps inv rest) (s s' : Ingestor) (a : α) (holds : inv s)
    (made : ∃ node ∈ s.tree.nodes, node.id = id ∧ node.kind = kind ∧ node.path = path)
    (ran : s.run (if c then
        updateSchedule (fun schedule => { schedule with content := schedule.content.set id body }) >>=
          fun _ => rest
      else rest) = (s', .ok a)) :
    inv s' := by
  split at ran
  · rename_i asked
    obtain ⟨s₁, u, setRan, ran⟩ := run_bind_eq_ok.1 ran
    simp only [run_updateSchedule, Prod.mk.injEq] at setRan
    obtain ⟨rfl, -⟩ := setRan
    obtain ⟨node, nodeMem, rfl, kind, atPath⟩ := made
    exact restKeeps _ _ _ (stable.setContent s node body (atPath ▸ within) holds nodeMem
      (kind.trans (file asked))) ran
  · exact restKeeps _ _ _ holds ran

theorem keeps_add (store : Store) {path : String} (within : region path) (change : Change) :
    Keeps inv (add store R path change) := by
  unfold add
  dsimp only
  -- The copy source is resolved first, when there is one; what follows is the same either way.
  split <;> refine Keeps.bind ?_ fun source => ?_
  · exact (keeps_of_run fun s => run_resolveSource s store R _).map _
  rotate_left
  · exact keeps_pure _
  all_goals
    refine stable.keeps_create ?_ ?_ ?_ ?_ fun id s s' a holds made ran => ?_
    · intro id
      rfl
    · intro id
      rfl
    · intro id
      exact within
    · intro id schedule
      exact ⟨rfl, rfl, rfl, rfl, rfl⟩
    refine stable.keeps_setContent_then within ?_ ?_ s s' a holds made ran
    · -- Only a file is given content.
      intro asked
      have isFile := (Bool.and_eq_true _ _ ▸ asked).1
      unfold NodeKind.isFile at isFile
      exact beq_iff_eq.1 isFile
    · -- A copied directory copies what was under its source, below the path; nothing else
      -- follows.
      split
      · exact Keeps.ite (stable.keeps_deepCopy store _ _ _ _ within) (keeps_pure ())
      · exact keeps_pure ()

theorem keeps_applyChange (store : Store) {path : String} (within : region path) (change : Change) :
    Keeps inv (applyChange store R path change) := by
  unfold applyChange
  split
  · split
    · exact keeps_pure ()
    · exact keeps_throw _
  · split
    · exact stable.keeps_modifyFile within change
    · exact stable.keeps_deleteTree within
    · refine Keeps.bind (keeps_of_run fun s => rfl) fun s => ?_
      dsimp only
      -- A node a directory copy of this revision made at the path is deleted first.
      exact Keeps.ite ((stable.keeps_deleteTree within).bind fun _ => stable.keeps_add store within change)
        (stable.keeps_add store within change)
    · exact (stable.keeps_deleteTree within).bind fun _ => stable.keeps_add store within change

end StableWithin

/-- A successful run of `apply` ends in a stable invariant the stamped ingestor holds. -/
theorem Stable.of_apply {s s' : Ingestor} {store : Store} {changeSet : ChangeSet}
    (stable : Stable changeSet.revision inv)
    (start : s.schedule.isEmpty = true →
      inv { s with schedule := { s.schedule with revision := some changeSet.revision } })
    (applied : s.run (Ingestor.apply store changeSet) = (s', .ok ())) : inv s' := by
  unfold Ingestor.apply at applied
  dsimp only at applied
  -- The revision and the emptiness of the schedule are checked before anything changes.
  rw [run_ite] at applied
  split at applied
  · simp at applied
  rw [run_bind, run_monadStateGet] at applied
  dsimp only at applied
  rw [run_ite] at applied
  split at applied
  · simp at applied
  rename_i empty
  obtain ⟨s₁, u, scheduled, rest⟩ := run_bind_eq_ok.1 applied
  simp only [run_updateSchedule, Prod.mk.injEq] at scheduled
  obtain ⟨rfl, -⟩ := scheduled
  obtain ⟨s₂, normalized, normalizing, applyRan⟩ := run_bind_eq_ok.1 rest
  -- Normalizing the paths changes nothing.
  have same : s₂ = { s with schedule := { s.schedule with revision := some changeSet.revision } } :=
    @keeps_mapM _ _ (fun t => t = { s with schedule := { s.schedule with
        revision := some changeSet.revision } }) _ _
      (fun change _ => (keeps_of_run fun t => by simp).bind fun path => keeps_pure _)
      _ s₂ normalized rfl normalizing
  subst same
  exact keeps_forM (fun entry _ => stable.within.keeps_applyChange store trivial entry.2) _ _ _
    (start (by simpa using empty)) applyRan

end Ingestor
end TreeHistory
