import TreeHistory.Proofs.Ingest.Stable
import TreeHistory.Proofs.Tree.Rebuild

/-!
# The schedule accounts for the live tree

While a revision is applied, its schedule keeps account of the changes against the tree it
started from, `base`: nodes made and still alive are in `createdSet`, nodes of `base` that are gone
are in `outdated`, every other node is as it was, and content is set once per live node. `Delta
base R` states this; each change `apply` makes keeps it (`Delta.stable`), and so does every
successful run of `apply` (`apply_delta`).
-/

namespace TreeHistory

namespace ContentMap

theorem mem_erase {map : ContentMap} {id : NodeId} {entry : NodeId × ContentBody} :
    entry ∈ map.erase id ↔ entry ∈ map ∧ entry.1 ≠ id := by
  simp [erase]

/-- Setting the content of `id` replaces its entry and keeps the others. -/
theorem mem_set {map : ContentMap} {id : NodeId} {body : ContentBody}
    {entry : NodeId × ContentBody} :
    entry ∈ map.set id body ↔ entry = (id, body) ∨ entry ∈ map ∧ entry.1 ≠ id := by
  simp only [set, List.mem_append, List.mem_filter, List.mem_singleton, mem_erase,
    decide_eq_true_eq]
  constructor
  · rintro ((⟨⟨mem, other⟩, -⟩ | same) | ⟨⟨mem, other⟩, -⟩)
    · exact .inr ⟨mem, other⟩
    · exact .inl same
    · exact .inr ⟨mem, other⟩
  · rintro (same | ⟨mem, other⟩)
    · exact .inl (.inr same)
    · rcases Int.lt_or_gt_of_ne other with below | above
      · exact .inl (.inl ⟨⟨mem, other⟩, below⟩)
      · exact .inr ⟨⟨mem, other⟩, above⟩

theorem nodup_erase {map : ContentMap} (nodup : (map.map (·.1)).Nodup) (id : NodeId) :
    ((map.erase id).map (·.1)).Nodup :=
  nodup.sublist (List.filter_sublist.map _)

/-- Setting content keeps one entry per node. -/
theorem nodup_set {map : ContentMap} (nodup : (map.map (·.1)).Nodup) (id : NodeId)
    (body : ContentBody) : ((map.set id body).map (·.1)).Nodup := by
  have rest := nodup_erase nodup id
  simp only [set, List.map_append, List.map_cons, List.map_nil]
  refine List.Nodup.append (List.Nodup.append ?_ (List.nodup_singleton _) ?_) ?_ ?_
  · exact rest.sublist (List.filter_sublist.map _)
  · simp
  · exact rest.sublist (List.filter_sublist.map _)
  · -- Keys below `id`, `id` itself, and keys above it are apart.
    intro key below above
    simp only [List.mem_append, List.mem_map, List.mem_filter, decide_eq_true_eq,
      List.mem_singleton] at below above
    obtain ⟨entry, ⟨-, larger⟩, rfl⟩ := above
    rcases below with ⟨other, ⟨-, smaller⟩, same⟩ | same
    · rw [← same] at larger
      exact absurd (lt_trans smaller larger) (lt_irrefl _)
    · exact absurd same (ne_of_gt larger)

end ContentMap

namespace LiveTree.WellFormed

/-- A file of a well-formed tree is not the root, which is a directory. -/
theorem ne_root_of_isFile {tree : LiveTree} (wf : tree.WellFormed) {node : LiveNode}
    (mem : node ∈ tree.nodes) (isFile : node.kind.isFile = true) : node.id ≠ NodeId.root := by
  intro isRoot
  obtain ⟨children, rootMem⟩ := wf.rootMem
  have same := wf.eq_of_id_eq mem rootMem isRoot
  rw [same] at isFile
  simp [LiveNode.root, NodeKind.isFile] at isFile

end LiveTree.WellFormed

namespace Ingestor

open LiveTree

/-- The schedule of `ingestor`, applying revision `R` to `base`, accounts for how its tree
differs from `base`. -/
structure Delta (base : LiveTree) (R : Revnum) (ingestor : Ingestor) : Prop where
  wellFormed : ingestor.tree.WellFormed
  /-- A node not created in the revision is as in `base`, unless it is outdated. -/
  kept : ∀ id, id ∉ ingestor.schedule.createdSet →
    ingestor.tree.recordOf? id =
      if id ∈ ingestor.schedule.outdated.map (·.1) then none else base.recordOf? id
  alive : ∀ id ∈ ingestor.schedule.createdSet, (ingestor.tree.recordOf? id).isSome
  /-- A created node that takes the id of a node of `base` has outdated that node. -/
  replaced : ∀ id ∈ ingestor.schedule.createdSet, (base.recordOf? id).isSome →
    id ∈ ingestor.schedule.outdated.map (·.1)
  createdNodup : ingestor.schedule.createdSet.Nodup
  notRoot : ∀ id ∈ ingestor.schedule.createdSet, id ≠ NodeId.root
  listed : ∀ id ∈ ingestor.schedule.createdSet, id ∈ ingestor.schedule.created
  /-- The outdated nodes are nodes of `base` other than the root, each outdated once. -/
  outdatedBased : ∀ entry ∈ ingestor.schedule.outdated,
    entry.1 ≠ NodeId.root ∧ (base.recordOf? entry.1).isSome
  outdatedNodup : (ingestor.schedule.outdated.map (·.1)).Nodup
  /-- The nodes created in the revision open at `R`. -/
  opened : ∀ id ∈ ingestor.schedule.createdSet,
    (ingestor.tree.recordOf? id).map (·.revMin) = some R
  /-- Content is set once per node, and for live nodes other than the root only. -/
  contentNodup : (ingestor.schedule.content.map (·.1)).Nodup
  contentLive : ∀ entry ∈ ingestor.schedule.content,
    entry.1 ≠ NodeId.root ∧ (ingestor.tree.recordOf? entry.1).isSome

namespace Delta

variable {base : LiveTree} {R : Revnum} {s : Ingestor}

/-- The account is about the tree and the schedule alone. -/
theorem of_eq (delta : Delta base R s) {s' : Ingestor} (tree : s'.tree = s.tree)
    (schedule : s'.schedule = s.schedule) : Delta base R s' := by
  obtain ⟨wellFormed, kept, alive, replaced, createdNodup, notRoot, listed, outdatedBased,
    outdatedNodup, opened, contentNodup, contentLive⟩ := delta
  rw [← tree, ← schedule] at *
  exact ⟨wellFormed, kept, alive, replaced, createdNodup, notRoot, listed, outdatedBased,
    outdatedNodup, opened, contentNodup, contentLive⟩

/-- A revision starts with nothing created, outdated or set. -/
theorem start (wf : s.tree.WellFormed) (noneCreated : s.schedule.createdSet = [])
    (noneOutdated : s.schedule.outdated = []) (noContent : s.schedule.content = []) :
    Delta s.tree R s where
  wellFormed := wf
  kept id _ := by simp [noneOutdated]
  alive id mem := by simp [noneCreated] at mem
  replaced id mem := by simp [noneCreated] at mem
  createdNodup := by simp [noneCreated]
  notRoot id mem := by simp [noneCreated] at mem
  listed id mem := by simp [noneCreated] at mem
  outdatedBased entry mem := by simp [noneOutdated] at mem
  outdatedNodup := by simp [noneOutdated]
  opened id mem := by simp [noneCreated] at mem
  contentNodup := by simp [noContent]
  contentLive entry mem := by simp [noContent] at mem

/-- A live node that the revision did not create is a node of `base` that it did not
outdate. -/
theorem based_of_live (delta : Delta base R s) {id : NodeId}
    (notCreated : id ∉ s.schedule.createdSet) (live : (s.tree.recordOf? id).isSome) :
    (base.recordOf? id).isSome ∧ id ∉ s.schedule.outdated.map (·.1) := by
  have kept := delta.kept id notCreated
  by_cases gone : id ∈ s.schedule.outdated.map (·.1)
  · rw [if_pos gone] at kept
    rw [kept] at live
    simp at live
  · rw [if_neg gone] at kept
    exact ⟨kept ▸ live, gone⟩

/-- Changes to the schedule that leave what it created and outdated alone keep the account. -/
theorem reschedule (delta : Delta base R s) {schedule : Schedule}
    (createdSet : schedule.createdSet = s.schedule.createdSet)
    (created : schedule.created = s.schedule.created)
    (outdated : schedule.outdated = s.schedule.outdated)
    (contentNodup : (schedule.content.map (·.1)).Nodup)
    (contentLive : ∀ entry ∈ schedule.content,
      entry.1 ≠ NodeId.root ∧ (s.tree.recordOf? entry.1).isSome) :
    Delta base R { s with schedule := schedule } where
  wellFormed := delta.wellFormed
  kept id notMem := by
    simp only [createdSet, outdated] at notMem ⊢
    exact delta.kept id notMem
  alive id mem := by
    simp only [createdSet] at mem
    exact delta.alive id mem
  replaced id mem based := by
    simp only [createdSet, outdated] at mem ⊢
    exact delta.replaced id mem based
  createdNodup := by
    simp only [createdSet]
    exact delta.createdNodup
  notRoot id mem := by
    simp only [createdSet] at mem
    exact delta.notRoot id mem
  listed id mem := by
    simp only [createdSet, created] at mem ⊢
    exact delta.listed id mem
  outdatedBased entry mem := by
    simp only [outdated] at mem
    exact delta.outdatedBased entry mem
  outdatedNodup := by
    simp only [outdated]
    exact delta.outdatedNodup
  opened id mem := by
    simp only [createdSet] at mem
    exact delta.opened id mem
  contentNodup := contentNodup
  contentLive := contentLive

/-- Setting the content of a live node other than the root keeps the account. -/
theorem setContent (delta : Delta base R s) {id : NodeId} (notRoot : id ≠ NodeId.root)
    (live : (s.tree.recordOf? id).isSome) (body : ContentBody) :
    Delta base R { s with schedule := { s.schedule with content := s.schedule.content.set id body } } :=
  delta.reschedule rfl rfl rfl (ContentMap.nodup_set delta.contentNodup id body) fun entry mem => by
    rcases ContentMap.mem_set.1 mem with rfl | ⟨mem, -⟩
    · exact ⟨notRoot, live⟩
    · exact delta.contentLive entry mem

/-- Creating a node that opens at `R` and recording it as created keeps the account. -/
theorem create (delta : Delta base R s) {new : NewNode} {result : LiveTree × LiveNode}
    (created : s.tree.create new = .ok result) (opensAt : new.revMin = R) {schedule : Schedule}
    (createdSet : schedule.createdSet = s.schedule.createdSet ++ [new.id])
    (createdList : schedule.created = s.schedule.created ++ [new.id])
    (outdated : schedule.outdated = s.schedule.outdated)
    (content : schedule.content = s.schedule.content) :
    Delta base R { s with tree := result.1, schedule := schedule } := by
  obtain ⟨parent, name, parentMem, parentDir, split, freshId, nameFree, rfl⟩ :=
    delta.wellFormed.create_eq_withCreated created
  have records := @recordOf?_withCreated s.tree new parent name freshId
  have fresh : s.tree.recordOf? new.id = none := by
    simp [LiveTree.recordOf?, node?_eq_none_iff.2 freshId]
  have notCreated : new.id ∉ s.schedule.createdSet := by
    intro mem
    have isAlive := delta.alive new.id mem
    rw [fresh] at isAlive
    simp at isAlive
  obtain ⟨rootChildren, rootMem⟩ := delta.wellFormed.rootMem
  constructor
  · exact delta.wellFormed.withCreated parentMem parentDir split freshId nameFree
  · intro id notMem
    rw [createdSet, List.mem_append, List.mem_singleton, not_or] at notMem
    simp only [outdated, records, if_neg notMem.2]
    exact delta.kept id notMem.1
  · intro id mem
    rw [createdSet, List.mem_append, List.mem_singleton] at mem
    simp only [records]
    by_cases same : id = new.id
    · simp [same]
    · rw [if_neg same]
      exact delta.alive id (mem.resolve_right same)
  · intro id mem based
    rw [createdSet, List.mem_append, List.mem_singleton] at mem
    rw [outdated]
    rcases mem with mem | rfl
    · exact delta.replaced id mem based
    · have kept := delta.kept _ notCreated
      rw [fresh] at kept
      by_contra notOutdated
      rw [if_neg notOutdated] at kept
      rw [← kept] at based
      simp at based
  · rw [createdSet]
    exact delta.createdNodup.append (List.nodup_singleton _)
      (List.disjoint_singleton.2 notCreated)
  · intro id mem
    rw [createdSet, List.mem_append, List.mem_singleton] at mem
    rcases mem with mem | rfl
    · exact delta.notRoot id mem
    · exact (freshId _ rootMem).symm
  · intro id mem
    rw [createdSet, List.mem_append] at mem
    rw [createdList, List.mem_append]
    exact mem.imp (delta.listed id) fun single => single
  · intro entry mem
    rw [outdated] at mem
    exact delta.outdatedBased entry mem
  · rw [outdated]
    exact delta.outdatedNodup
  · intro id mem
    rw [createdSet, List.mem_append, List.mem_singleton] at mem
    simp only [records]
    by_cases same : id = new.id
    · simp [same, createdNode, opensAt, LiveNode.toRecord]
    · rw [if_neg same]
      exact delta.opened id (mem.resolve_right same)
  · rw [content]
    exact delta.contentNodup
  · intro entry mem
    rw [content] at mem
    simp only [records]
    split
    · exact ⟨(delta.contentLive entry mem).1, rfl⟩
    · exact delta.contentLive entry mem

/-- Dropping a node and recording the drop keeps the account. -/
theorem drop (delta : Delta base R s) {path : String} {result : LiveTree × LiveNode}
    (dropped : s.tree.drop path = .ok result) {schedule : Schedule}
    (createdSet : schedule.createdSet = s.schedule.createdSet.erase result.2.id)
    (created : schedule.created = s.schedule.created)
    (outdated : schedule.outdated = if result.2.id ∈ s.schedule.createdSet then s.schedule.outdated
      else s.schedule.outdated ++ [(result.2.id, result.2.kind)])
    (content : schedule.content = ContentMap.erase s.schedule.content result.2.id) :
    Delta base R { s with tree := result.1, schedule := schedule } := by
  obtain ⟨node, nodeMem, -, notRoot, leaf, rfl⟩ := delta.wellFormed.drop_eq_withDropped dropped
  have records := @recordOf?_withDropped s.tree node
  -- Besides the dropped node, the same ids are outdated as before.
  have outdatedOther : ∀ id, id ≠ node.id →
      (id ∈ schedule.outdated.map (·.1) ↔ id ∈ s.schedule.outdated.map (·.1)) := by
    intro id other
    rw [outdated]
    split <;> simp [other]
  have mem_erase : ∀ id, id ∈ s.schedule.createdSet.erase node.id ↔
      id ≠ node.id ∧ id ∈ s.schedule.createdSet := fun id =>
    delta.createdNodup.mem_erase_iff
  -- A dropped node that the revision did not create is a node of `base` not yet outdated.
  have basedNode : node.id ∉ s.schedule.createdSet →
      (base.recordOf? node.id).isSome ∧ node.id ∉ s.schedule.outdated.map (·.1) := fun notCreated =>
    delta.based_of_live notCreated (by simp [delta.wellFormed.recordOf?_of_mem nodeMem])
  constructor
  · exact delta.wellFormed.withDropped nodeMem notRoot leaf
  · intro id notMem
    simp only at notMem ⊢
    rw [records]
    by_cases same : id = node.id
    · subst same
      rw [if_pos rfl]
      by_cases wasCreated : node.id ∈ s.schedule.createdSet
      · rw [outdated, if_pos wasCreated]
        by_cases gone : node.id ∈ s.schedule.outdated.map (·.1)
        · rw [if_pos gone]
        · rw [if_neg gone]
          cases based : base.recordOf? node.id with
          | none => rfl
          | some record =>
            exact absurd (delta.replaced _ wasCreated (by simp [based])) gone
      · rw [outdated, if_neg wasCreated, if_pos (by simp)]
    · rw [createdSet, mem_erase, not_and] at notMem
      rw [if_neg same, delta.kept id (notMem same)]
      simp only [outdatedOther id same]
  · intro id mem
    simp only [createdSet, mem_erase] at mem
    rw [records, if_neg mem.1]
    exact delta.alive id mem.2
  · intro id mem based
    simp only [createdSet, mem_erase] at mem
    exact (outdatedOther id mem.1).2 (delta.replaced id mem.2 based)
  · simp only [createdSet]
    exact delta.createdNodup.erase _
  · intro id mem
    simp only [createdSet, mem_erase] at mem
    exact delta.notRoot id mem.2
  · intro id mem
    simp only [createdSet, mem_erase, created] at mem ⊢
    exact delta.listed id mem.2
  · intro entry mem
    rw [outdated] at mem
    split at mem
    · exact delta.outdatedBased entry mem
    · rename_i notCreated
      rcases List.mem_append.1 mem with mem | single
      · exact delta.outdatedBased entry mem
      · rw [List.mem_singleton.1 single]
        exact ⟨notRoot, (basedNode notCreated).1⟩
  · rw [outdated]
    split
    · exact delta.outdatedNodup
    · rename_i notCreated
      rw [List.map_append, List.map_singleton]
      exact delta.outdatedNodup.append (List.nodup_singleton _)
        (List.disjoint_singleton.2 (basedNode notCreated).2)
  · intro id mem
    simp only [createdSet, mem_erase] at mem
    rw [records, if_neg mem.1]
    exact delta.opened id mem.2
  · rw [content]
    exact ContentMap.nodup_erase delta.contentNodup _
  · intro entry mem
    rw [content, ContentMap.mem_erase] at mem
    rw [records, if_neg mem.2]
    exact delta.contentLive entry mem.1

/-- What the plan of an accounted schedule says about the tree. -/
theorem records_of_plan (delta : Delta base R s) (baseWf : base.WellFormed) {plan : Plan}
    (planned : Schedule.plan s.tree s.schedule = .ok plan) (record : NodeRecord) :
    record ∈ s.tree.records ↔
      (record ∈ base.records ∧ record.id ∉ plan.outdated.map (·.1)) ∨
        record ∈ plan.created.map (·.record) := by
  unfold Schedule.plan at planned
  obtain ⟨nodes, made, planEq⟩ := Except.bind_eq_ok.1 planned
  simp only [pure, Except.pure, Except.ok.injEq] at planEq
  subst planEq
  obtain ⟨fromIds, toNodes⟩ := Except.mapM_eq_ok made
  have wf := delta.wellFormed
  constructor
  · intro mem
    obtain ⟨notRoot, found⟩ := wf.mem_records_iff.1 mem
    by_cases createdNow : record.id ∈ s.schedule.createdSet
    · -- A node created in the revision is in the plan, with its record.
      right
      have listed : record.id ∈ s.schedule.created.filter s.schedule.createdSet.contains := by
        simp [delta.listed _ createdNow, createdNow]
      obtain ⟨node, nodeMem, lookedUp⟩ := toNodes _ listed
      obtain ⟨live, liveFound, rfl⟩ := Option.map_eq_some_iff.1 found
      simp only [liveFound, Except.ok.injEq] at lookedUp
      exact List.mem_map.2 ⟨node, nodeMem, by rw [← lookedUp]⟩
    · -- Any other node is a node of `base` that was not outdated.
      left
      have kept := delta.kept _ createdNow
      rw [found] at kept
      split at kept
      · simp at kept
      · rename_i notOutdated
        exact ⟨baseWf.mem_records_iff.2 ⟨notRoot, kept.symm⟩, notOutdated⟩
  · rintro (⟨mem, notOutdated⟩ | mem)
    · obtain ⟨notRoot, found⟩ := baseWf.mem_records_iff.1 mem
      have notCreated : record.id ∉ s.schedule.createdSet := fun createdNow =>
        notOutdated (delta.replaced _ createdNow (by simp [found]))
      have kept := delta.kept _ notCreated
      rw [if_neg notOutdated, found] at kept
      exact wf.mem_records_iff.2 ⟨notRoot, kept⟩
    · obtain ⟨node, nodeMem, rfl⟩ := List.mem_map.1 mem
      obtain ⟨id, idMem, lookedUp⟩ := fromIds node nodeMem
      simp only [List.mem_filter, List.contains_iff_mem] at idMem
      cases found : s.tree.node? id with
      | none => simp [found] at lookedUp
      | some live =>
        simp only [found, Except.ok.injEq] at lookedUp
        subst lookedUp
        obtain ⟨liveMem, rfl⟩ := wf.node?_eq_some_iff.1 found
        exact mem_records.2 ⟨live, liveMem, delta.notRoot _ idMem.2, rfl⟩

end Delta

/-! ## Every step of `apply` keeps the account -/

/-- Each change `apply` makes to the live tree and its schedule keeps the account. -/
theorem Delta.stable (base : LiveTree) (R : Revnum) : Stable R (Delta base R) where
  drop s path dropped delta dropping := by
    refine delta.drop dropping ?_ ?_ ?_ ?_ <;> simp
  create s new created schedule delta _ opensAt creating creates :=
    (delta.create creating opensAt creates.createdSet creates.created creates.outdated
      creates.content).of_eq rfl rfl
  setContent s node body delta nodeMem file :=
    delta.setContent (delta.wellFormed.ne_root_of_isFile nodeMem (by simp [file, NodeKind.isFile]))
      (by simp [delta.wellFormed.recordOf?_of_mem nodeMem]) body

/-- Applying a change set to a well-formed tree leaves a schedule that accounts for the tree. -/
theorem apply_delta {s s' : Ingestor} {store : Store} {changeSet : ChangeSet}
    (wf : s.tree.WellFormed) (applied : s.run (apply store changeSet) = (s', .ok ())) :
    Delta s.tree changeSet.revision s' := by
  refine (Delta.stable s.tree changeSet.revision).of_apply (fun empty => ?_) applied
  -- The revision starts from a schedule with nothing created, outdated or set.
  simp [Schedule.isEmpty] at empty
  obtain ⟨⟨noneOutdated, noneCreated⟩, noContent⟩ := empty
  have begun : Delta s.tree changeSet.revision s := Delta.start wf noneCreated noneOutdated noContent
  exact begun.reschedule rfl rfl rfl begun.contentNodup begun.contentLive

end Ingestor
end TreeHistory
