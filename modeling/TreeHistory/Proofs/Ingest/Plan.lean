import Mathlib
import TreeHistory.Proofs.Ingest.Delta
import TreeHistory.Proofs.Indexer.Budget
import TreeHistory.Proofs.Indexer.Batching

/-!
# The plan of a revision is the difference of two trees

Applying a change set and taking the plan turns the live tree before the revision into the tree
after it, and the plan says exactly how (`plan_is_tree_delta`): it creates the nodes the new tree
has and the old lacks, by ascending id; it outdates the nodes the old tree has and the new lacks,
each once, with its kind, below before above; it modifies the content of files both trees have;
and each id handed out is created or discarded.

The account `Delta` gives most of this, and `Ledger` the rest; each change `apply` makes keeps the
ledger (`Ledger.stable`). The counter's bound is needed: past the largest 64-bit id the counter
wraps, and a plan made across the wrap lists its ids out of order
(`created_ids_wrap_past_largest`).
-/

namespace TreeHistory

namespace ContentMap

/-- Unsetting content keeps the entries by ascending id. -/
theorem sorted_erase {map : ContentMap} (sorted : (map.map (·.1)).Pairwise (· < ·)) (id : NodeId) :
    ((map.erase id).map (·.1)).Pairwise (· < ·) :=
  sorted.sublist (List.filter_sublist.map _)

/-- Setting content keeps the entries by ascending id. -/
theorem sorted_set {map : ContentMap} (sorted : (map.map (·.1)).Pairwise (· < ·)) (id : NodeId)
    (body : ContentBody) : ((map.set id body).map (·.1)).Pairwise (· < ·) := by
  have rest := sorted_erase sorted id
  simp only [set, List.map_append, List.map_cons, List.map_nil]
  refine List.pairwise_append.2 ⟨List.pairwise_append.2 ⟨?_, List.pairwise_singleton _ _, ?_⟩, ?_, ?_⟩
  · exact rest.sublist (List.filter_sublist.map _)
  · -- The keys kept below `id` come before it.
    intro key below other single
    obtain ⟨entry, mem, rfl⟩ := List.mem_map.1 below
    rw [List.mem_filter, decide_eq_true_eq] at mem
    rw [List.mem_singleton.1 single]
    exact mem.2
  · exact rest.sublist (List.filter_sublist.map _)
  · -- The keys kept above `id` come after it, and after those below it.
    intro key below key' above
    obtain ⟨entry', mem', rfl⟩ := List.mem_map.1 above
    rw [List.mem_filter, decide_eq_true_eq] at mem'
    rcases List.mem_append.1 below with below | single
    · obtain ⟨entry, mem, rfl⟩ := List.mem_map.1 below
      rw [List.mem_filter, decide_eq_true_eq] at mem
      exact lt_trans mem.2 mem'.2
    · rw [List.mem_singleton.1 single]
      exact mem'.2

end ContentMap

/-- Below the largest 64-bit value, stepping the counter `n` times adds `n`. -/
theorem NodeId.iterate_next {start : NodeId} (nonneg : 0 ≤ start) :
    ∀ {n : Nat}, start + n ≤ Revnum.head → NodeId.next^[n] start = start + n
  | 0, _ => by simp
  | n + 1, room => by
    have below : start + n < Revnum.head := by
      push_cast at room
      unfold NodeId at *
      omega
    have stepped : 0 ≤ start + n := by
      unfold NodeId at *
      omega
    rw [Function.iterate_succ_apply', iterate_next nonneg below.le, NodeId.next_of_lt stepped below]
    push_cast
    ring

/-- Ascending ids above `low` and at most `high` number at most `high - low`. -/
theorem length_le_of_ascending {ids : List NodeId} {low high : NodeId} (le : low ≤ high)
    (ascending : ids.Pairwise (· < ·)) (within : ∀ id ∈ ids, low < id ∧ id ≤ high) :
    (ids.length : Int) ≤ high - low := by
  have subset : ids.toFinset ⊆ Finset.Ioc low high := by
    intro id mem
    exact Finset.mem_Ioc.2 (within id (List.mem_toFinset.1 mem))
  have card := Finset.card_le_card subset
  rw [List.toFinset_card_of_nodup ascending.nodup, Int.card_Ioc] at card
  unfold NodeId at *
  omega

/-- Filtering ids, each listed once, by membership in a sublist of them gives the sublist. -/
theorem filter_contains_of_sublist {part whole : List NodeId} (sub : part.Sublist whole)
    (nodup : whole.Nodup) : whole.filter part.contains = part := by
  induction sub with
  | slnil => rfl
  | @cons part whole first sub restEq =>
    -- The head is not in the sublist, since the list has it once.
    have absent : first ∉ part := fun mem => (List.nodup_cons.1 nodup).1 (sub.subset mem)
    rw [List.filter_cons_of_neg (by simpa using absent), restEq (List.nodup_cons.1 nodup).2]
  | @cons_cons part whole first sub restEq =>
    rw [List.filter_cons_of_pos (by simp)]
    congr 1
    rw [← restEq (List.nodup_cons.1 nodup).2]
    refine List.filter_congr fun id mem => ?_
    have other : id ≠ first := fun same => (List.nodup_cons.1 nodup).1 (same ▸ mem)
    simp [other, mem]

/-! ## What a plan says -/

/-- What `plan` says about the trees `before` and `after` its revision `R`, and about the counter
before and after it. -/
structure Plan.Describes (plan : Plan) (before after : LiveTree) (R : Revnum)
    (lastBefore lastAfter : NodeId) : Prop where
  /-- The nodes created are those of `after` whose ids `before` lacks, by ascending id, each
  opened at `R` and still open. -/
  createdAscending : (plan.created.map (·.record.id)).Pairwise (· < ·)
  createdExactly : ∀ record, record ∈ plan.created.map (·.record) ↔
    record ∈ after.records ∧ record.id ∉ before.records.map (·.id)
  createdOpen : ∀ node ∈ plan.created, node.record.revMin = R ∧ node.record.revMax = Revnum.head
  /-- The nodes outdated are those of `before` that `after` lacks, each once, with its kind, below
before above. -/
  outdatedExactly : ∀ entry, entry ∈ plan.outdated ↔
    ∃ record ∈ before.records, (record.id, record.kind) = entry ∧ record.id ∉ after.records.map (·.id)
  outdatedOnce : (plan.outdated.map (·.1)).Nodup
  belowFirst : plan.outdated.Pairwise fun earlier later =>
    ∀ record, Below before.records earlier.1 record → record.id ≠ later.1
  /-- The content modified is that of files both trees have, unchanged, by ascending id. -/
  modifiedAscending : (plan.modified.map (·.1)).Pairwise (· < ·)
  modifiedFiles : ∀ entry ∈ plan.modified,
    ∃ record ∈ before.records, record ∈ after.records ∧ record.id = entry.1 ∧ record.kind = .file
  /-- The ids created lie above the counter as it was and at most where it ends; each id handed
  out was created or discarded. -/
  createdFresh : ∀ node ∈ plan.created, lastBefore < node.record.id ∧ node.record.id ≤ lastAfter
  counted : (plan.discarded + plan.created.length : Int) = lastAfter - lastBefore

/-- What a plan is made of. -/
theorem Schedule.plan_eq_ok {tree : LiveTree} {schedule : Schedule} {plan : Plan}
    (planned : Schedule.plan tree schedule = .ok plan) :
    plan.outdated = schedule.outdated ∧ plan.discarded = schedule.discarded ∧
      plan.created.map (·.record.id) = schedule.created.filter schedule.createdSet.contains ∧
      (∀ node ∈ plan.created, tree.recordOf? node.record.id = some node.record) ∧
      plan.modified = schedule.content.filter fun entry =>
        !plan.created.any fun node => node.record.id == entry.1 && node.record.kind.isFile := by
  unfold Schedule.plan at planned
  obtain ⟨nodes, made, planEq⟩ := Except.bind_eq_ok.1 planned
  simp only [pure, Except.pure, Except.ok.injEq] at planEq
  subst planEq
  unfold Schedule.createdNodes at made
  refine ⟨rfl, rfl, Except.map_of_mapM_eq_ok (fun id node found => ?_) made, fun node mem => ?_, rfl⟩
  · -- Each node made is the live node of its id.
    cases lookup : tree.node? id with
    | none => simp [lookup] at found
    | some live =>
      simp only [lookup, Except.ok.injEq] at found
      rw [← found]
      simpa using List.find?_some lookup
  · obtain ⟨id, -, found⟩ := (Except.mapM_eq_ok made).1 node mem
    cases lookup : tree.node? id with
    | none => simp [lookup] at found
    | some live =>
      simp only [lookup, Except.ok.injEq] at found
      have sameId : live.id = id := by simpa using List.find?_some lookup
      rw [← found]
      simp [LiveTree.recordOf?, sameId, lookup]

namespace Ingestor

open LiveTree

/-- Taking a plan that the schedule makes starts a new schedule and gives that plan. -/
theorem run_takePlan_of_plan {s : Ingestor} {plan : Plan}
    (planned : Schedule.plan s.tree s.schedule = .ok plan) :
    s.run takePlan = ({ s with schedule := {} }, .ok plan) := by
  unfold takePlan
  rw [run_bind, run_get]
  dsimp only
  rw [run_bind, run_set]
  dsimp only
  rw [planned]
  rfl

/-- A schedule that accounts for its tree makes a plan: every node it still counts as created
is live. -/
theorem Delta.plan_ok {base : LiveTree} {R : Revnum} {s : Ingestor} (delta : Delta base R s) :
    ∃ plan, Schedule.plan s.tree s.schedule = .ok plan := by
  obtain ⟨nodes, made⟩ : ∃ nodes, Schedule.createdNodes s.tree s.schedule = .ok nodes := by
    unfold Schedule.createdNodes
    refine Except.mapM_ok_of_forall fun id mem => ?_
    have alive := delta.alive id (by simpa using (List.mem_filter.1 mem).2)
    cases lookup : s.tree.node? id with
    | none => simp [LiveTree.recordOf?, lookup] at alive
    | some live => exact ⟨_, rfl⟩
  exact ⟨_, by rw [Schedule.plan, made]; rfl⟩

/-! ## The ledger of a revision -/

/-- What the account of revision `R`, applied to `base` from the counter `start`, does not
track. -/
structure Ledger (base : LiveTree) (R : Revnum) (start : NodeId) (s : Ingestor) : Prop
    extends Delta base R s where
  /-- The counter has stepped once for every node created. -/
  counter : s.lastId = NodeId.next^[s.schedule.created.length] start
  /-- The nodes still counted as created are among those created, in order; the others were
  discarded. -/
  aliveSublist : s.schedule.createdSet.Sublist s.schedule.created
  counted : s.schedule.discarded + s.schedule.createdSet.length = s.schedule.created.length
  /-- Each outdated node is a node of `base`, with its kind. -/
  outdatedKinds : ∀ entry ∈ s.schedule.outdated,
    ∃ record ∈ base.records, (record.id, record.kind) = entry
  /-- What lies below an outdated node in `base` is outdated too, and earlier. -/
  outdatedClosed : ∀ entry ∈ s.schedule.outdated, ∀ record, Below base.records entry.1 record →
    record.id ∈ s.schedule.outdated.map (·.1)
  belowFirst : s.schedule.outdated.Pairwise fun earlier later =>
    ∀ record, Below base.records earlier.1 record → record.id ≠ later.1
  /-- Content is kept by ascending id, for live files only. -/
  contentSorted : (s.schedule.content.map (·.1)).Pairwise (· < ·)
  contentFiles : ∀ entry ∈ s.schedule.content,
    ∃ record, s.tree.recordOf? entry.1 = some record ∧ record.kind = .file

namespace Ledger

variable {base : LiveTree} {R : Revnum} {start : NodeId} {s : Ingestor}

/-- A revision starts from a drained schedule, with the counter where it was. -/
theorem begin {s : Ingestor} (wf : s.tree.WellFormed) (drained : s.schedule = {}) :
    Ledger s.tree R s.lastId { s with schedule := { s.schedule with revision := some R } } := by
  have begun : Delta s.tree R s :=
    Delta.start wf (by simp [drained]) (by simp [drained]) (by simp [drained])
  exact { toDelta := begun.reschedule rfl rfl rfl begun.contentNodup begun.contentLive
          counter := by simp [drained]
          aliveSublist := by simp [drained]
          counted := by simp [drained]
          outdatedKinds := by simp [drained]
          outdatedClosed := by simp [drained]
          belowFirst := by simp [drained]
          contentSorted := by simp [drained]
          contentFiles := by simp [drained] }

/-- Below a live leaf that the revision did not create, every node of `base` is outdated: it was
dropped before the leaf became one. -/
theorem outdated_below_leaf (ledger : Ledger base R start s) (baseWf : base.WellFormed)
    {node : LiveNode} (nodeMem : node ∈ s.tree.nodes) (leaf : node.children = []) :
    ∀ record, Below base.records node.id record → record.id ∈ s.schedule.outdated.map (·.1) := by
  intro record below
  induction below with
  | @child record mem parent =>
    by_contra notOutdated
    -- A child of the leaf in `base` that was not outdated would still be live under it.
    have baseRecord := (baseWf.mem_records_iff.1 mem).2
    have notCreated : record.id ∉ s.schedule.createdSet := fun created =>
      notOutdated (ledger.replaced _ created (by simp [baseRecord]))
    have kept := ledger.kept _ notCreated
    rw [if_neg notOutdated, baseRecord] at kept
    obtain ⟨live, liveMem, -, rfl⟩ := ledger.wellFormed.recordOf?_eq_some_iff.1 kept
    exact ledger.wellFormed.parent_ne_of_leaf nodeMem leaf live liveMem
      (baseWf.mem_records_iff.1 mem).1 parent
  | @under record above _ mem parent aboveOutdated =>
    obtain ⟨entry, entryMem, sameId⟩ := List.mem_map.1 aboveOutdated
    refine ledger.outdatedClosed entry entryMem record ?_
    rw [sameId]
    exact .child mem parent

/-- The content the schedule keeps after unsetting that of a dropped node. -/
theorem contentFiles_withDropped (ledger : Ledger base R start s) (node : LiveNode) :
    ∀ entry ∈ s.schedule.content.erase node.id, ∃ record,
      (s.tree.withDropped node).recordOf? entry.1 = some record ∧ record.kind = .file := by
  intro entry mem
  rw [ContentMap.mem_erase] at mem
  rw [recordOf?_withDropped, if_neg mem.2]
  exact ledger.contentFiles entry mem.1

/-- Dropping a node keeps the ledger. -/
theorem drop (ledger : Ledger base R start s) (baseWf : base.WellFormed) {path : String}
    {dropped : LiveTree × LiveNode} (dropping : s.tree.drop path = .ok dropped) :
    Ledger base R start { s with tree := dropped.1, schedule := s.schedule.afterDrop dropped.2 } := by
  have delta := (Delta.stable base R).drop s path dropped ledger.toDelta dropping
  obtain ⟨node, nodeMem, -, notRoot, leaf, rfl⟩ := ledger.wellFormed.drop_eq_withDropped dropping
  by_cases created : node.id ∈ s.schedule.createdSet
  · rw [Schedule.afterDrop_of_mem _ _ created] at delta ⊢
    exact { toDelta := delta
            counter := ledger.counter
            aliveSublist := (List.erase_sublist).trans ledger.aliveSublist
            counted := by
              have shorter := List.length_erase_of_mem created
              have nonempty := List.length_pos_of_mem created
              have counted := ledger.counted
              simp only
              omega
            outdatedKinds := ledger.outdatedKinds
            outdatedClosed := ledger.outdatedClosed
            belowFirst := ledger.belowFirst
            contentSorted := ContentMap.sorted_erase ledger.contentSorted _
            contentFiles := ledger.contentFiles_withDropped node }
  · rw [Schedule.afterDrop_of_not_mem _ _ created] at delta ⊢
    -- The node is one of `base`, not outdated yet, and unchanged since.
    have live := ledger.wellFormed.recordOf?_of_mem nodeMem
    have notOutdated := (ledger.based_of_live created (by simp [live])).2
    have kept := ledger.kept _ created
    rw [if_neg notOutdated, live] at kept
    have baseRecord : node.toRecord ∈ base.records := baseWf.mem_records_iff.2 ⟨notRoot, kept.symm⟩
    exact { toDelta := delta
            counter := ledger.counter
            aliveSublist := ledger.aliveSublist
            counted := ledger.counted
            outdatedKinds := by
              intro entry mem
              rcases List.mem_append.1 mem with mem | single
              · exact ledger.outdatedKinds entry mem
              · rw [List.mem_singleton.1 single]
                exact ⟨node.toRecord, baseRecord, rfl⟩
            outdatedClosed := by
              intro entry mem record below
              rw [List.map_append, List.mem_append]
              left
              rcases List.mem_append.1 mem with mem | single
              · exact ledger.outdatedClosed entry mem record below
              · rw [List.mem_singleton.1 single] at below
                exact ledger.outdated_below_leaf baseWf nodeMem leaf record below
            belowFirst := by
              refine List.pairwise_append.2 ⟨ledger.belowFirst, List.pairwise_singleton _ _, ?_⟩
              -- The node is below no outdated node, or it would be outdated already.
              intro earlier mem later single record below same
              have closed := ledger.outdatedClosed earlier mem record below
              rw [same, List.mem_singleton.1 single] at closed
              exact notOutdated closed
            contentSorted := ContentMap.sorted_erase ledger.contentSorted _
            contentFiles := ledger.contentFiles_withDropped node }

/-- Creating a node under the next id and recording it keeps the ledger. -/
theorem create (ledger : Ledger base R start s) {new : NewNode} {created : LiveTree × LiveNode}
    {schedule : Schedule} (fresh : new.id = NodeId.next s.lastId) (opensAt : new.revMin = R)
    (creating : s.tree.create new = .ok created) (creates : s.schedule.Creates schedule new.id) :
    Ledger base R start
      { s with lastId := NodeId.next s.lastId, tree := created.1, schedule := schedule } where
  toDelta := (Delta.stable base R).create s new created schedule ledger.toDelta fresh opensAt
    creating creates
  counter := by
    simp only
    rw [creates.created, List.length_append, List.length_singleton, Function.iterate_succ_apply',
      ← ledger.counter]
  aliveSublist := by
    simp only
    rw [creates.createdSet, creates.created]
    exact ledger.aliveSublist.append (List.Sublist.refl _)
  counted := by
    simp only
    rw [creates.discarded, creates.createdSet, creates.created, List.length_append,
      List.length_append, ← ledger.counted]
    omega
  outdatedKinds := by
    simp only
    rw [creates.outdated]
    exact ledger.outdatedKinds
  outdatedClosed := by
    simp only
    rw [creates.outdated]
    exact ledger.outdatedClosed
  belowFirst := by
    simp only
    rw [creates.outdated]
    exact ledger.belowFirst
  contentSorted := by
    simp only
    rw [creates.content]
    exact ledger.contentSorted
  contentFiles := by
    obtain ⟨parent, name, -, -, -, freshId, -, rfl⟩ := ledger.wellFormed.create_eq_withCreated creating
    intro entry mem
    simp only at mem ⊢
    rw [creates.content] at mem
    obtain ⟨record, found, file⟩ := ledger.contentFiles entry mem
    -- A node with content was live, so it is not the new one.
    have other : entry.1 ≠ new.id := by
      intro same
      obtain ⟨live, liveMem, liveId, -⟩ := ledger.wellFormed.recordOf?_eq_some_iff.1 found
      exact freshId live liveMem (liveId.trans same)
    exact ⟨record, by rw [recordOf?_withCreated freshId, if_neg other]; exact found, file⟩

/-- Setting the content of a live file keeps the ledger. -/
theorem setContent (ledger : Ledger base R start s) {node : LiveNode} (nodeMem : node ∈ s.tree.nodes)
    (file : node.kind = .file) (body : ContentBody) :
    Ledger base R start
      { s with schedule := { s.schedule with content := s.schedule.content.set node.id body } } where
  toDelta := (Delta.stable base R).setContent s node body ledger.toDelta nodeMem file
  counter := ledger.counter
  aliveSublist := ledger.aliveSublist
  counted := ledger.counted
  outdatedKinds := ledger.outdatedKinds
  outdatedClosed := ledger.outdatedClosed
  belowFirst := ledger.belowFirst
  contentSorted := ContentMap.sorted_set ledger.contentSorted node.id body
  contentFiles := by
    intro entry mem
    rcases ContentMap.mem_set.1 mem with rfl | ⟨mem, -⟩
    · exact ⟨node.toRecord, ledger.wellFormed.recordOf?_of_mem nodeMem, file⟩
    · exact ledger.contentFiles entry mem

/-- Each change `apply` makes keeps the ledger. -/
theorem stable (baseWf : base.WellFormed) (R : Revnum) (start : NodeId) :
    Stable R (Ledger base R start) where
  drop _ _ _ ledger dropping := ledger.drop baseWf dropping
  create _ _ _ _ ledger fresh opensAt creating creates := ledger.create fresh opensAt creating creates
  setContent _ _ body ledger nodeMem file := ledger.setContent nodeMem file body

end Ledger

/-- Applying a change set from a drained schedule leaves a ledger of the revision. -/
theorem apply_ledger {s s' : Ingestor} {store : Store} {changeSet : ChangeSet}
    (wf : s.tree.WellFormed) (drained : s.schedule = {})
    (applied : s.run (apply store changeSet) = (s', .ok ())) :
    Ledger s.tree changeSet.revision s.lastId s' :=
  (Ledger.stable wf changeSet.revision s.lastId).of_apply (fun _ => Ledger.begin wf drained) applied

/-- The plan of a ledger says exactly how the tree differs from `base`, when the ids created lie
above the starting counter and the counter has not wrapped. -/
theorem Ledger.describes {base : LiveTree} {R : Revnum} {start : NodeId} {s : Ingestor}
    (ledger : Ledger base R start s) (baseWf : base.WellFormed)
    (based : ∀ record ∈ base.records, record.id ≤ start)
    (fresh : ∀ id ∈ s.schedule.created, start < id ∧ id ≤ s.lastId)
    (ascending : s.schedule.created.Pairwise (· < ·))
    (stepped : (s.schedule.created.length : Int) = s.lastId - start)
    {plan : Plan} (planned : Schedule.plan s.tree s.schedule = .ok plan) :
    plan.Describes base s.tree R start s.lastId := by
  obtain ⟨outdatedEq, discardedEq, ids, records, modifiedEq⟩ := Schedule.plan_eq_ok planned
  have recordsIff := ledger.records_of_plan baseWf planned
  simp only [outdatedEq] at recordsIff
  have createdId := Schedule.created_of_plan planned
  -- A created id lies above the counter, where no id of `base` is.
  have notBased : ∀ node ∈ plan.created, node.record.id ∉ base.records.map (·.id) := by
    intro node mem basedId
    obtain ⟨record, recordMem, sameId⟩ := List.mem_map.1 basedId
    have atMost := based record recordMem
    have above := (fresh _ (createdId node mem)).1
    rw [sameId] at atMost
    unfold NodeId at *
    omega
  have alive : ∀ node ∈ plan.created, node.record.id ∈ s.schedule.createdSet := by
    intro node mem
    have listed : node.record.id ∈ s.schedule.created.filter s.schedule.createdSet.contains := by
      rw [← ids]
      exact List.mem_map_of_mem mem
    simpa using (List.mem_filter.1 listed).2
  refine { createdAscending := ?createdAscending
           createdExactly := fun record => ?createdExactly
           createdOpen := fun node mem => ?createdOpen
           outdatedExactly := fun entry => ?outdatedExactly
           outdatedOnce := ?outdatedOnce
           belowFirst := ?belowFirst
           modifiedAscending := ?modifiedAscending
           modifiedFiles := fun entry mem => ?modifiedFiles
           createdFresh := fun node mem => fresh _ (createdId node mem)
           counted := ?counted }
  case createdAscending =>
    rw [ids]
    exact ascending.sublist List.filter_sublist
  case createdExactly =>
    rw [recordsIff]
    constructor
    · intro mem
      obtain ⟨node, nodeMem, rfl⟩ := List.mem_map.1 mem
      exact ⟨.inr mem, notBased node nodeMem⟩
    · rintro ⟨⟨baseMem, -⟩ | mem, notIn⟩
      · exact absurd (List.mem_map_of_mem baseMem) notIn
      · exact mem
  case createdOpen =>
    have found := records node mem
    have opened := ledger.opened _ (alive node mem)
    rw [found] at opened
    obtain ⟨live, -, -, sameRecord⟩ := ledger.wellFormed.recordOf?_eq_some_iff.1 found
    exact ⟨by simpa using opened, by rw [← sameRecord]; rfl⟩
  case outdatedExactly =>
    rw [outdatedEq]
    constructor
    · intro mem
      obtain ⟨record, recordMem, rfl⟩ := ledger.outdatedKinds entry mem
      refine ⟨record, recordMem, rfl, fun inAfter => ?_⟩
      -- After the revision the id is neither a kept node of `base` nor a created one.
      obtain ⟨other, otherMem, sameId⟩ := List.mem_map.1 inAfter
      rcases (recordsIff other).1 otherMem with ⟨-, notOutdated⟩ | created
      · exact notOutdated (sameId ▸ List.mem_map_of_mem mem)
      · obtain ⟨node, nodeMem, rfl⟩ := List.mem_map.1 created
        exact notBased node nodeMem (sameId ▸ List.mem_map_of_mem recordMem)
    · rintro ⟨record, recordMem, rfl, notAfter⟩
      by_cases outdated : record.id ∈ s.schedule.outdated.map (·.1)
      · -- The entry of its id carries the kind of the one node of `base` with that id.
        obtain ⟨entry, entryMem, sameId⟩ := List.mem_map.1 outdated
        obtain ⟨other, otherMem, otherEq⟩ := ledger.outdatedKinds entry entryMem
        have same : other = record := List.inj_on_of_nodup_map baseWf.records_ids_nodup otherMem
          recordMem (by rw [← sameId, ← otherEq])
        rw [← otherEq, same] at entryMem
        exact entryMem
      · exact absurd (List.mem_map_of_mem ((recordsIff record).2 (.inl ⟨recordMem, outdated⟩)))
          notAfter
  case outdatedOnce =>
    rw [outdatedEq]
    exact ledger.outdatedNodup
  case belowFirst =>
    rw [outdatedEq]
    exact ledger.belowFirst
  case modifiedAscending =>
    rw [modifiedEq]
    exact ledger.contentSorted.sublist (List.filter_sublist.map _)
  case modifiedFiles =>
    rw [modifiedEq, List.mem_filter] at mem
    obtain ⟨contentMem, notCreatedFile⟩ := mem
    obtain ⟨record, found, file⟩ := ledger.contentFiles entry contentMem
    obtain ⟨live, -, liveId, sameRecord⟩ := ledger.wellFormed.recordOf?_eq_some_iff.1 found
    have recordId : record.id = entry.1 := by
      rw [← sameRecord]
      exact liveId
    -- A file created in the revision takes its content with it, so this one was not created.
    have notCreated : entry.1 ∉ s.schedule.createdSet := by
      intro created
      have listed : entry.1 ∈ plan.created.map (·.record.id) := by
        rw [ids]
        simp [ledger.listed _ created, created]
      obtain ⟨node, nodeMem, sameId⟩ := List.mem_map.1 listed
      have sameNode : node.record = record := by
        have lookedUp := records node nodeMem
        rw [sameId, found] at lookedUp
        exact (Option.some.inj lookedUp).symm
      simp only [Bool.not_eq_eq_eq_not, Bool.not_true, List.any_eq_false] at notCreatedFile
      exact notCreatedFile node nodeMem (by simp [sameNode, recordId, file, NodeKind.isFile])
    have notOutdated := (ledger.based_of_live notCreated (by simp [found])).2
    have kept := ledger.kept _ notCreated
    rw [if_neg notOutdated, found] at kept
    have notRoot := (ledger.contentLive entry contentMem).1
    refine ⟨record, baseWf.mem_records_iff.2 ⟨?_, ?_⟩, ledger.wellFormed.mem_records_iff.2 ⟨?_, ?_⟩,
      recordId, file⟩
    all_goals rw [recordId]
    · exact notRoot
    · exact kept.symm
    · exact notRoot
    · exact found
  case counted =>
    have lengths := congrArg List.length ids
    rw [List.length_map, filter_contains_of_sublist ledger.aliveSublist ascending.nodup] at lengths
    rw [discardedEq, lengths, ← stepped]
    exact_mod_cast ledger.counted

/-- Applying a change set from a drained schedule and taking the plan succeeds, and the plan is
the difference of the trees before and after: it creates the nodes only the new tree has, by
ascending id, each opened at the revision; it outdates the nodes only the old tree has, each once,
with its kind, after everything below it; it modifies the content of files both trees have, by
ascending id; and every id handed out is created or discarded. This holds while the counter, at
or above every id of the tree, has room for one id per change and one per row each copy may
read. -/
theorem plan_is_tree_delta {store : Store} {N : Nat} (copies : CopiesWithin store N)
    {s s' : Ingestor} {changeSet : ChangeSet} (wf : s.tree.WellFormed) (drained : s.schedule = {})
    (counter : ∀ node ∈ s.tree.nodes, node.id ≤ s.lastId)
    (room : s.lastId + changeSet.changes.length * (N + 1) ≤ Revnum.head)
    (applied : s.run (apply store changeSet) = (s', .ok ())) :
    ∃ plan, s'.run takePlan = ({ s' with schedule := {} }, .ok plan) ∧
      plan.Describes s.tree s'.tree changeSet.revision s.lastId s'.lastId := by
  have ledger := apply_ledger wf drained applied
  -- The counter is at or above the root's id, and the run hands out ids above it, in order.
  have nonneg : 0 ≤ s.lastId := by
    obtain ⟨children, rootMem⟩ := wf.rootMem
    exact counter _ rootMem
  obtain ⟨up, within, fresh, createdEq, freshIds, ascending⟩ :=
    allocates_apply copies changeSet s nonneg (by exact_mod_cast room)
  rw [applied] at up within createdEq freshIds
  dsimp only at up within freshIds
  simp only [drained, List.nil_append] at createdEq
  rw [← createdEq] at freshIds ascending
  -- No wrap: the counter stepped once per id created, each step adding one.
  have stepped : (s'.schedule.created.length : Int) = s'.lastId - s.lastId := by
    have atMost := length_le_of_ascending up ascending freshIds
    have fits : s.lastId + s'.schedule.created.length ≤ Revnum.head := by
      push_cast at room within
      unfold NodeId at *
      omega
    rw [ledger.counter, NodeId.iterate_next nonneg fits]
    ring
  have based : ∀ record ∈ s.tree.records, record.id ≤ s.lastId := by
    intro record mem
    obtain ⟨node, nodeMem, -, rfl⟩ := LiveTree.mem_records.1 mem
    exact counter node nodeMem
  obtain ⟨plan, planned⟩ := ledger.plan_ok
  exact ⟨plan, run_takePlan_of_plan planned,
    ledger.describes wf based freshIds ascending stepped planned⟩

end Ingestor

/-! ## Two directories added -/

/-- Revision 1, adding the directories `/a` and `/b`. -/
def addsTwoDirs : ChangeSet :=
  { info := { id := 1, author := none, dateMs := 0, message := "" },
    changes := [{ path := "/a", action := .added, kind := .dir },
      { path := "/b", action := .added, kind := .dir }] }

/-- Adding two directories to the empty tree succeeds, and its plan describes the change. -/
theorem two_dirs_plan_describes :
    let applied := ({} : Ingestor).run (Ingestor.apply (Reference.store {}) addsTwoDirs)
    applied.2 = .ok () ∧ ∃ plan,
      applied.1.run Ingestor.takePlan = ({ applied.1 with schedule := {} }, .ok plan) ∧
        plan.Describes LiveTree.empty applied.1.tree addsTwoDirs.revision 0 applied.1.lastId := by
  intro applied
  have ran : applied.2 = .ok () := by
    simp only [applied, Ingestor.apply, Ingestor.sortByPath_eq_insertionSort]
    decide +kernel
  refine ⟨ran, Ingestor.plan_is_tree_delta
    (Ingestor.copiesWithin_of_forest (Reference.holds {}) fun _ => ⟨by simp, by simp⟩)
    LiveTree.WellFormed.empty rfl (fun node mem => ?_) ?_ (Prod.ext rfl ran)⟩
  · -- The empty tree holds the root alone, whose id is the counter's start.
    simp only [LiveTree.empty, List.mem_singleton] at mem
    rw [mem]
    exact le_refl _
  · rw [(Reference.holds {}).nodeCount]
    decide

/-- Past the largest 64-bit id the counter wraps: the two directories take the largest id and then
the smallest, so the plan lists its created ids out of order. -/
theorem created_ids_wrap_past_largest :
    let applied := ({ lastId := Revnum.head - 1 } : Ingestor).run
      (Ingestor.apply (Reference.store {}) addsTwoDirs)
    applied.2 = .ok () ∧ applied.1.lastId = -Revnum.head - 1 ∧
      ((applied.1.run Ingestor.takePlan).2.map fun plan => plan.created.map (·.record.id)) =
        .ok [Revnum.head, -Revnum.head - 1] := by
  simp only [Ingestor.apply, Ingestor.sortByPath_eq_insertionSort]
  decide +kernel

end TreeHistory
