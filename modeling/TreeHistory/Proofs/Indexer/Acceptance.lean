import Mathlib
import TreeHistory.Proofs.Indexer.Batching

/-!
# The writers accept every plan that fits the tables

A revision's plan commits exactly when its writes, writer by writer, run and leave every content
row naming a node row (`Transaction.Goes`); every plan that fits the tables does so (`Plan.goes`).
Each writer's writes are of one kind, taken on its own: closing content windows always goes
through, closing a node's live window goes through when it has one, and an insert goes through
when its key is new.
-/

namespace TreeHistory

namespace Statement

/-- The node a content row a statement inserts belongs to. -/
def contentNode : Statement → Option NodeId
  | .insertContent node _ _ => some node
  | _ => none

end Statement

/-- The key of a content row: its node and the revision it opened at. -/
def ContentRecord.key (row : ContentRecord) : NodeId × Revnum := (row.node, row.revMin)

namespace Tables

open Statement

/-- The deferred foreign key holds when every content row's node is the id of a node row. -/
theorem keysHold_iff {t : Tables} :
    t.keysHold = true ↔ ∀ row ∈ t.contents, row.node ∈ t.nodes.map (·.id) := by
  simp [keysHold]

/-! ## Writes of one kind -/

/-- Closing content windows always goes through; it keeps the node rows and the keys of the
content rows. -/
theorem execAll_outdateContents :
    ∀ {writes : List Statement} (t : Tables), (∀ s ∈ writes, s.writer = some .contentOutdates) →
      ∃ t', t.execAll writes = (t', none) ∧ t'.nodes = t.nodes ∧
        t'.contents.map ContentRecord.key = t.contents.map ContentRecord.key
  | [], t, _ => ⟨t, rfl, rfl, rfl⟩
  | s :: rest, t, kinds => by
    have first := kinds s List.mem_cons_self
    cases s with
    | outdateContent node revMax =>
      obtain ⟨t', ran, nodes, keys⟩ := execAll_outdateContents
        ((Statement.outdateContent node revMax).apply t) fun s mem => kinds s (List.mem_cons_of_mem _ mem)
      refine ⟨t', execAll_cons_eq_none.2 ⟨trivial, ran⟩, nodes, ?_⟩
      rw [keys]
      simp [Statement.apply, ContentRecord.key, Function.comp_def]
    | _ => simp [writer] at first

/-- With distinct ids, closing the live window of a node that has one opened by `revMax` selects
exactly that node's row. -/
theorem countP_closesNode {rows : List NodeRecord} (ids : (rows.map (·.id)).Nodup)
    {node : NodeId} {revMax : Revnum} {row : NodeRecord} (rowMem : row ∈ rows) (named : row.id = node)
    (live : row.revMax = Revnum.head) (opened : row.revMin ≤ revMax) :
    rows.countP (closesNode node revMax) = 1 := by
  have selected : row ∈ rows.filter (closesNode node revMax) := by
    simp [rowMem, closesNode, named, live, opened]
  -- Every selected row has the node's id, so it is `row`, and the selection has no repeats.
  have onlyRow : ∀ other ∈ rows.filter (closesNode node revMax), other = row := by
    intro other mem
    obtain ⟨otherMem, closing⟩ := List.mem_filter.1 mem
    simp only [closesNode, Bool.and_eq_true, beq_iff_eq] at closing
    exact List.inj_on_of_nodup_map ids otherMem rowMem (closing.1.1.trans named.symm)
  have nodup := (ids.of_map _).filter (closesNode node revMax)
  rw [List.eq_replicate_of_mem onlyRow, List.nodup_replicate] at nodup
  have nonempty := List.length_pos_of_mem selected
  rw [List.countP_eq_length_filter]
  omega

/-- Closing the live windows of distinct nodes, each of which has one opened by `revMax`, goes
through; it keeps the node ids and the content rows. -/
theorem execAll_outdateNodes {revMax : Revnum} :
    ∀ {writes : List Statement} (t : Tables), (∀ s ∈ writes, ∃ node, s = .outdateNode node revMax) →
      (writes.filterMap closedNode).Nodup → (t.nodes.map (·.id)).Nodup →
      (∀ node ∈ writes.filterMap closedNode, ∃ row ∈ t.nodes,
        row.id = node ∧ row.revMax = Revnum.head ∧ row.revMin ≤ revMax) →
      ∃ t', t.execAll writes = (t', none) ∧ t'.nodes.map (·.id) = t.nodes.map (·.id) ∧
        t'.contents = t.contents
  | [], t, _, _, _, _ => ⟨t, rfl, rfl, rfl⟩
  | s :: rest, t, kinds, distinct, ids, live => by
    obtain ⟨node, rfl⟩ := kinds s List.mem_cons_self
    simp only [List.filterMap_cons, closedNode, List.nodup_cons] at distinct live
    obtain ⟨row, rowMem, named, isLive, opened⟩ := live node List.mem_cons_self
    have closed : ∀ r ∈ t.nodes, r.id ≠ node → closeAt [node] revMax r = r := by
      intro r _ other
      simp [closeAt, other]
    -- Closing `node` leaves the rows of the other nodes as they were.
    have idsAfter : ((t.nodes.map (closeAt [node] revMax)).map (·.id)) = t.nodes.map (·.id) := by
      simp [List.map_map, Function.comp_def]
    -- Closing `node` leaves the rows of the other nodes as they were, live.
    have liveAfter : ∀ other ∈ rest.filterMap closedNode, ∃ r ∈ t.nodes.map (closeAt [node] revMax),
        r.id = other ∧ r.revMax = Revnum.head ∧ r.revMin ≤ revMax := by
      intro other otherMem
      obtain ⟨r, rMem, rNamed, rLive, rOpened⟩ := live other (List.mem_cons_of_mem _ otherMem)
      have differs : r.id ≠ node := by
        rintro same
        exact distinct.1 (by rw [← same, rNamed]; exact otherMem)
      exact ⟨r, List.mem_map.2 ⟨r, rMem, closed r rMem differs⟩, rNamed, rLive, rOpened⟩
    obtain ⟨t', ran, sameIds, sameContents⟩ := execAll_outdateNodes
      ((Statement.outdateNode node revMax).apply t)
      (fun s mem => kinds s (List.mem_cons_of_mem _ mem)) distinct.2
      (by simpa [Statement.apply, idsAfter] using ids) liveAfter
    refine ⟨t', execAll_cons_eq_none.2 ⟨countP_closesNode ids rowMem named isLive opened, ran⟩,
      ?_, sameContents⟩
    rw [sameIds]
    simp [Statement.apply, Function.comp_def]

/-- Inserting node rows with distinct new ids, each opened no later than it closes, goes
through; the rows follow the others, and the content rows stay. -/
theorem execAll_insertNodes :
    ∀ {records : List NodeRecord} (t : Tables), (∀ record ∈ records, record.revMin ≤ record.revMax) →
      (records.map (·.id)).Nodup → (∀ record ∈ records, record.id ∉ t.nodes.map (·.id)) →
      ∃ t', t.execAll (records.map .insertNode) = (t', none) ∧ t'.nodes = t.nodes ++ records ∧
        t'.contents = t.contents
  | [], t, _, _, _ => ⟨t, rfl, by simp, rfl⟩
  | record :: rest, t, ordered, distinct, fresh => by
    simp only [List.map_cons, List.nodup_cons, List.mem_map] at distinct ⊢
    -- A later row's id is neither an old one nor the one just inserted.
    have freshAfter : ∀ r ∈ rest, r.id ∉ ((Statement.insertNode record).apply t).nodes.map (·.id) := by
      intro r mem
      have other : r.id ≠ record.id := fun same => distinct.1 ⟨r, mem, same⟩
      simpa [Statement.apply, other] using fresh r (List.mem_cons_of_mem _ mem)
    obtain ⟨t', ran, nodes, contents⟩ := execAll_insertNodes ((Statement.insertNode record).apply t)
      (fun r mem => ordered r (List.mem_cons_of_mem _ mem)) distinct.2 freshAfter
    refine ⟨t', execAll_cons_eq_none.2 ⟨⟨ordered record List.mem_cons_self,
      fresh record List.mem_cons_self⟩, ran⟩, ?_, contents⟩
    simp [nodes, Statement.apply]

/-- Inserting content rows that open at `revMin` for distinct nodes, none of which has a row
opened there, goes through; the new keys follow the others, and the node rows stay. -/
theorem execAll_insertContents {revMin : Revnum} (bounded : revMin ≤ Revnum.head) :
    ∀ {writes : List Statement} (t : Tables),
      (∀ s ∈ writes, ∃ node data, s = .insertContent node revMin data) →
      (writes.filterMap contentNode).Nodup →
      (∀ node ∈ writes.filterMap contentNode, (node, revMin) ∉ t.contents.map ContentRecord.key) →
      ∃ t', t.execAll writes = (t', none) ∧ t'.nodes = t.nodes ∧
        t'.contents.map ContentRecord.key =
          t.contents.map ContentRecord.key ++ (writes.filterMap contentNode).map (·, revMin)
  | [], t, _, _, _ => ⟨t, rfl, rfl, by simp⟩
  | s :: rest, t, kinds, distinct, fresh => by
    obtain ⟨node, data, rfl⟩ := kinds s List.mem_cons_self
    simp only [List.filterMap_cons, contentNode, List.nodup_cons, List.mem_cons,
      forall_eq_or_imp] at distinct fresh
    -- A later node is neither one with a row there nor the one just given one.
    have freshAfter : ∀ other ∈ rest.filterMap contentNode,
        (other, revMin) ∉ ((Statement.insertContent node revMin data).apply t).contents.map
          ContentRecord.key := by
      intro other mem
      have differs : other ≠ node := fun same => distinct.1 (same ▸ mem)
      simpa [Statement.apply, ContentRecord.key, differs, Function.comp_def] using fresh.2 other mem
    obtain ⟨t', ran, nodes, keys⟩ := execAll_insertContents bounded
      ((Statement.insertContent node revMin data).apply t)
      (fun s mem => kinds s (List.mem_cons_of_mem _ mem)) distinct.2 freshAfter
    refine ⟨t', execAll_cons_eq_none.2 ⟨⟨bounded, ?_⟩, ran⟩, nodes, ?_⟩
    · simpa [ContentRecord.key, Function.comp_def] using fresh.1
    · simp [keys, Statement.apply, ContentRecord.key, contentNode]

/-! ## Each writer's writes -/

/-- What a projection sees of one writer's writes is what it sees of all writes, when it sees
only statements of that writer. -/
theorem filterMap_through {β : Type} {f : Statement → Option β} {w : Writer}
    (only : ∀ s, (f s).isSome → s.writer = some w) :
    ∀ writes : List Statement, (through w writes).filterMap f = writes.filterMap f
  | [] => rfl
  | s :: rest => by
    have restSame := filterMap_through only rest
    by_cases mine : s.writer = some w
    · have kept : through w (s :: rest) = s :: through w rest := by simp [through, mine]
      rw [kept, List.filterMap_cons, List.filterMap_cons, restSame]
    · have unseen : f s = none := Option.not_isSome_iff_eq_none.1 fun seen => mine (only s seen)
      have skipped : through w (s :: rest) = through w rest := by simp [through, mine]
      rw [skipped, restSame, List.filterMap_cons, unseen]

/-- The node inserts among any writes insert the rows those writes insert, in order. -/
theorem through_nodeInserts :
    ∀ writes : List Statement,
      through .nodeInserts writes = (writes.filterMap insertedNode).map .insertNode
  | [] => rfl
  | s :: rest => by
    have restSame := through_nodeInserts rest
    cases s
    case insertNode record =>
      rw [through, List.filter_cons_of_pos (by simp [writer]), ← through, restSame]
      rfl
    all_goals
      rw [through, List.filter_cons_of_neg (by simp [writer]), ← through, restSame]
      rfl

end Tables

namespace Plan

open Tables Statement

/-- The nodes a plan gives content rows: the created nodes that have content, then the files
whose content it replaces. -/
def contentNodes (plan : Plan) : List NodeId :=
  plan.created.filterMap (fun node => node.content.map fun _ => node.record.id) ++
    plan.modified.map (·.1)

section
variable (revision : Revnum)

@[simp] theorem outdateStatements_contentNode (entry : NodeId × NodeKind) :
    (outdateStatements revision entry).filterMap contentNode = [] := by
  unfold outdateStatements
  split <;> simp [contentNode, List.filterMap_cons]

@[simp] theorem createdStatements_contentNode (node : CreatedNode) :
    (createdStatements revision node).filterMap contentNode =
      (node.content.map fun _ => node.record.id).toList := by
  cases content : node.content <;> simp [createdStatements, contentNode, content, List.filterMap_cons]

@[simp] theorem modifiedStatements_contentNode (entry : NodeId × ContentBody) :
    (modifiedStatements revision entry).filterMap contentNode = [entry.1] := by
  simp [modifiedStatements, contentNode, List.filterMap_cons]

variable (plan : Plan)

@[simp] theorem statements_contentNode :
    (plan.statements revision).filterMap contentNode = plan.contentNodes := by
  simp [statements, contentNodes, List.filterMap_flatMap, ← List.map_eq_flatMap,
    flatMap_const_nil]
  rw [List.filterMap_eq_flatMap_toList]

/-- A plan's calls hand the writers the plan's writes. -/
theorem writes_calls : Transaction.Call.writes revision plan.calls = plan.statements revision := by
  have created : ∀ node : CreatedNode,
      (Transaction.Call.insertNode node.record ::
        (node.content.map fun body => .insertContent node.record.id body.data).toList).flatMap
          (Transaction.Call.statements revision) = createdStatements revision node := by
    intro node
    cases content : node.content <;> simp [createdStatements, content, Transaction.Call.statements]
  simp only [Transaction.Call.writes, calls, statements, List.flatMap_append, List.flatMap_map,
    List.flatMap_assoc, created]
  rfl

end

/-! ## Plans that fit the tables -/

/-- A plan fits the tables it is written against at revision `R` when every write passes the
store's checks: distinct node ids, each outdated node with one live row opened before `R`, new
distinct ids for the created rows, and content rows for distinct stored or created nodes. -/
structure Fits (t : Tables) (R : Revnum) (plan : Plan) : Prop where
  ids : (t.nodes.map (·.id)).Nodup
  keys : t.keysHold = true
  contentsBefore : ∀ row ∈ t.contents, row.revMin < R
  outdatedNodup : (plan.outdated.map (·.1)).Nodup
  outdatedLive : ∀ entry ∈ plan.outdated, ∃ row ∈ t.nodes,
    row.id = entry.1 ∧ row.revMax = Revnum.head ∧ row.revMin < R
  opened : ∀ node ∈ plan.created, node.record.revMin = R ∧ node.record.revMax = Revnum.head
  createdNodup : (plan.created.map (·.record.id)).Nodup
  createdFresh : ∀ node ∈ plan.created, node.record.id ∉ t.nodes.map (·.id)
  contentNodup : plan.contentNodes.Nodup
  modifiedStored : ∀ entry ∈ plan.modified,
    entry.1 ∈ t.nodes.map (·.id) ∨ entry.1 ∈ plan.created.map (·.record.id)

section
variable {t : Tables} {R : Revnum} {plan : Plan}

/-- The calls of a fitting plan pass their checks: every row inserted opens at `R`. -/
theorem Fits.valid (fits : plan.Fits t R) : ∀ call ∈ plan.calls, call.Valid R := by
  intro call mem
  simp only [calls, List.mem_append, List.mem_map, List.mem_flatMap, List.mem_cons] at mem
  rcases mem with (⟨entry, -, rfl⟩ | ⟨node, nodeMem, rfl | mem⟩) | ⟨entry, -, rfl⟩
  · trivial
  · exact fits.opened node nodeMem
  · cases content : node.content <;> simp [content] at mem
    subst mem
    trivial
  · trivial

/-- The writes of a fitting plan that close windows and insert node rows go through: they keep
the content keys and add the created nodes' ids after the others. -/
theorem Fits.nodeWrites (fits : plan.Fits t R) (positive : 1 ≤ R) (belowHead : R < Revnum.head) :
    ∃ t₃, t.execAll (through .contentOutdates (plan.statements R) ++
        through .nodeOutdates (plan.statements R) ++ through .nodeInserts (plan.statements R)) =
        (t₃, none) ∧
      t₃.nodes.map (·.id) = t.nodes.map (·.id) ++ plan.created.map (·.record.id) ∧
      t₃.contents.map ContentRecord.key = t.contents.map ContentRecord.key := by
  have ofRevision := Transaction.Call.ofRevision_of_mem_writes fits.valid
  rw [writes_calls] at ofRevision
  -- Content windows close first, which changes no key.
  obtain ⟨t₁, ran₁, nodes₁, keys₁⟩ := @execAll_outdateContents
    (through .contentOutdates (plan.statements R)) t fun s mem => writer_of_mem_through mem
  -- Then each outdated node's live window closes, at the revision before.
  have kinds₂ : ∀ s ∈ through .nodeOutdates (plan.statements R),
      ∃ node, s = .outdateNode node (Revnum.prev R) := by
    intro s mem
    have goesThrough := writer_of_mem_through mem
    have atRevision := ofRevision s (List.mem_of_mem_filter mem)
    cases s <;> simp_all [Statement.writer, OfRevision]
  have closed₂ : (through .nodeOutdates (plan.statements R)).filterMap closedNode =
      plan.outdated.map (·.1) := by
    rw [filterMap_through fun s seen => ?_, statements_closedNode]
    cases s <;> simp_all [closedNode, writer]
  have live₂ : ∀ node ∈ (through .nodeOutdates (plan.statements R)).filterMap closedNode,
      ∃ row ∈ t₁.nodes, row.id = node ∧ row.revMax = Revnum.head ∧ row.revMin ≤ Revnum.prev R := by
    rw [closed₂, nodes₁]
    intro node mem
    obtain ⟨entry, entryMem, rfl⟩ := List.mem_map.1 mem
    obtain ⟨row, rowMem, named, live, before⟩ := fits.outdatedLive entry entryMem
    refine ⟨row, rowMem, named, live, ?_⟩
    rw [Revnum.prev_eq_sub_one positive (Int.le_of_lt belowHead)]
    exact Int.le_sub_one_of_lt before
  obtain ⟨t₂, ran₂, ids₂, contents₂⟩ := execAll_outdateNodes t₁ kinds₂
    (closed₂ ▸ fits.outdatedNodup) (nodes₁ ▸ fits.ids) live₂
  -- Then the created nodes' rows go in, under ids the tables do not have.
  have inserted : through .nodeInserts (plan.statements R) =
      (plan.created.map (·.record)).map .insertNode := by
    rw [through_nodeInserts, statements_insertedNode]
  have fresh₃ : ∀ record ∈ plan.created.map (·.record), record.id ∉ t₂.nodes.map (·.id) := by
    rw [ids₂, nodes₁]
    intro record mem
    obtain ⟨node, nodeMem, rfl⟩ := List.mem_map.1 mem
    exact fits.createdFresh node nodeMem
  have ordered₃ : ∀ record ∈ plan.created.map (·.record), record.revMin ≤ record.revMax := by
    intro record mem
    obtain ⟨node, nodeMem, rfl⟩ := List.mem_map.1 mem
    rw [(fits.opened node nodeMem).1, (fits.opened node nodeMem).2]
    exact Int.le_of_lt belowHead
  obtain ⟨t₃, ran₃, nodes₃, contents₃⟩ := execAll_insertNodes t₂ ordered₃
    (by simpa [Function.comp_def] using fits.createdNodup) fresh₃
  refine ⟨t₃, execAll_append_eq_none.2 ⟨t₂, execAll_append_eq_none.2 ⟨t₁, ran₁, ran₂⟩,
    inserted ▸ ran₃⟩, ?_, ?_⟩
  · simp [nodes₃, ids₂, nodes₁, Function.comp_def]
  · rw [contents₃, contents₂, keys₁]

/-- Every plan that fits the tables goes through the writers and commits. -/
theorem Fits.goes (fits : plan.Fits t R) (positive : 1 ≤ R) (belowHead : R < Revnum.head) :
    Transaction.Goes t R plan.calls := by
  have ofRevision := Transaction.Call.ofRevision_of_mem_writes fits.valid
  rw [writes_calls] at ofRevision
  refine ⟨fits.valid, ?_⟩
  rw [writes_calls]
  obtain ⟨t₃, ran₃, ids₃, keys₃⟩ := fits.nodeWrites positive belowHead
  -- The content rows open at `R`, where no content row opened before.
  have kinds₄ : ∀ s ∈ through .contentInserts (plan.statements R),
      ∃ node data, s = .insertContent node R data := by
    intro s mem
    have goesThrough := writer_of_mem_through mem
    have atRevision := ofRevision s (List.mem_of_mem_filter mem)
    cases s <;> simp_all [Statement.writer, OfRevision]
  have content₄ : (through .contentInserts (plan.statements R)).filterMap contentNode =
      plan.contentNodes := by
    rw [filterMap_through fun s seen => ?_, statements_contentNode]
    cases s <;> simp_all [contentNode, writer]
  have fresh₄ : ∀ node ∈ (through .contentInserts (plan.statements R)).filterMap contentNode,
      (node, R) ∉ t₃.contents.map ContentRecord.key := by
    intro node _ mem
    rw [keys₃] at mem
    obtain ⟨row, rowMem, same⟩ := List.mem_map.1 mem
    simp only [ContentRecord.key, Prod.mk.injEq] at same
    exact absurd same.2 (Int.ne_of_lt (fits.contentsBefore row rowMem))
  obtain ⟨t₄, ran₄, nodes₄, keys₄⟩ := execAll_insertContents (Int.le_of_lt belowHead) t₃ kinds₄
    (content₄ ▸ fits.contentNodup) fresh₄
  refine ⟨t₄, execAll_append_eq_none.2 ⟨t₃, ran₃, ran₄⟩, keysHold_iff.2 fun row rowMem => ?_⟩
  -- Every content row names a stored node or one the plan created.
  have keyMem : row.key ∈ t₄.contents.map ContentRecord.key := List.mem_map_of_mem rowMem
  rw [nodes₄, ids₃]
  rw [keys₄, keys₃, content₄, List.mem_append] at keyMem
  rcases keyMem with old | new
  · obtain ⟨old, oldMem, same⟩ := List.mem_map.1 old
    have named : row.node = old.node := (congrArg Prod.fst same).symm
    exact List.mem_append_left _ (named ▸ keysHold_iff.1 fits.keys old oldMem)
  · obtain ⟨node, nodeMem, same⟩ := List.mem_map.1 new
    have named : row.node = node := (congrArg Prod.fst same).symm
    rw [named]
    rcases List.mem_append.1 nodeMem with created | modified
    · obtain ⟨made, madeMem, hasContent⟩ := List.mem_filterMap.1 created
      obtain ⟨_, -, rfl⟩ := Option.map_eq_some_iff.1 hasContent
      exact List.mem_append_right _ (List.mem_map_of_mem madeMem)
    · obtain ⟨entry, entryMem, rfl⟩ := List.mem_map.1 modified
      exact (fits.modifiedStored entry entryMem).elim (List.mem_append_left _)
        (List.mem_append_right _)

end

end Plan

end TreeHistory
