import TreeHistory.Proofs.Store.Tables
import TreeHistory.Proofs.Store.Writers

/-!
# What a committed revision does to the tables

Whatever order the writers run in, a committed revision appends its revision row, closes the live
windows of the nodes it outdated at the revision before, and adds a row for each node it created;
closing never touches a row the same revision inserted (`Tables.execAll_nodes`).
`Indexer.writeRevision_tables` states the tables after a commit in terms of the plan.
-/

namespace TreeHistory

namespace Statement

/-- The revision row a statement inserts. -/
def insertedRevision : Statement → Option RevisionInfo
  | .insertRevision info => some info
  | _ => none

/-- The node row a statement inserts. -/
def insertedNode : Statement → Option NodeRecord
  | .insertNode record => some record
  | _ => none

/-- The node whose live window a statement closes. -/
def closedNode : Statement → Option NodeId
  | .outdateNode node _ => some node
  | _ => none

/-- The content row a statement inserts. -/
def insertedContent : Statement → Option ContentRecord
  | .insertContent node revMin data =>
    some { node := node, revMin := revMin, revMax := Revnum.head, data := data }
  | _ => none

/-- The node whose live content a statement closes. -/
def closedContent : Statement → Option NodeId
  | .outdateContent node _ => some node
  | _ => none

end Statement

namespace Revnum

/-- Inside the range of stored revisions, the revision before `r` is `r - 1`. -/
theorem prev_eq_sub_one {r : Revnum} (positive : 1 ≤ r) (bounded : r ≤ head) : prev r = r - 1 := by
  unfold Revnum at positive bounded
  unfold prev
  unfold head at bounded
  exact wrap64_of_mem _ (by omega) (by omega)

end Revnum

namespace Plan

/-- The files whose live content a plan closes: those it outdates and those it modifies. -/
def closedContents (plan : Plan) : List NodeId :=
  (plan.outdated.filter (·.2.isFile)).map (·.1) ++ plan.modified.map (·.1)

/-- The content rows a plan inserts at `revision`: those of the nodes it creates with content, and
those of the files it modifies, all live. -/
def contentRows (plan : Plan) (revision : Revnum) : List ContentRecord :=
  plan.created.filterMap (fun node => node.content.map fun body =>
    { node := node.record.id, revMin := revision, revMax := Revnum.head, data := body.data }) ++
  plan.modified.map fun entry =>
    { node := entry.1, revMin := revision, revMax := Revnum.head, data := entry.2.data }

/-! The rows a plan's writes insert and the windows they close, writer by writer. -/

section
variable (revision : Revnum)

@[simp] theorem outdateStatements_closedNode (entry : NodeId × NodeKind) :
    (outdateStatements revision entry).filterMap Statement.closedNode = [entry.1] := by
  unfold outdateStatements
  split <;> simp [Statement.closedNode, List.filterMap_cons]

@[simp] theorem outdateStatements_insertedNode (entry : NodeId × NodeKind) :
    (outdateStatements revision entry).filterMap Statement.insertedNode = [] := by
  unfold outdateStatements
  split <;> simp [Statement.insertedNode, List.filterMap_cons]

@[simp] theorem outdateStatements_insertedRevision (entry : NodeId × NodeKind) :
    (outdateStatements revision entry).filterMap Statement.insertedRevision = [] := by
  unfold outdateStatements
  split <;> simp [Statement.insertedRevision, List.filterMap_cons]

@[simp] theorem createdStatements_closedNode (node : CreatedNode) :
    (createdStatements revision node).filterMap Statement.closedNode = [] := by
  cases node.content <;> simp [createdStatements, Statement.closedNode]

@[simp] theorem createdStatements_insertedNode (node : CreatedNode) :
    (createdStatements revision node).filterMap Statement.insertedNode = [node.record] := by
  cases node.content <;> simp [createdStatements, Statement.insertedNode]

@[simp] theorem createdStatements_insertedRevision (node : CreatedNode) :
    (createdStatements revision node).filterMap Statement.insertedRevision = [] := by
  cases node.content <;> simp [createdStatements, Statement.insertedRevision]

@[simp] theorem modifiedStatements_closedNode (entry : NodeId × ContentBody) :
    (modifiedStatements revision entry).filterMap Statement.closedNode = [] := by
  simp [modifiedStatements, Statement.closedNode]

@[simp] theorem modifiedStatements_insertedNode (entry : NodeId × ContentBody) :
    (modifiedStatements revision entry).filterMap Statement.insertedNode = [] := by
  simp [modifiedStatements, Statement.insertedNode]

@[simp] theorem modifiedStatements_insertedRevision (entry : NodeId × ContentBody) :
    (modifiedStatements revision entry).filterMap Statement.insertedRevision = [] := by
  simp [modifiedStatements, Statement.insertedRevision]

@[simp] theorem outdateStatements_closedContent (entry : NodeId × NodeKind) :
    (outdateStatements revision entry).filterMap Statement.closedContent =
      if entry.2.isFile then [entry.1] else [] := by
  unfold outdateStatements
  split <;> simp [Statement.closedContent, List.filterMap_cons]

@[simp] theorem outdateStatements_insertedContent (entry : NodeId × NodeKind) :
    (outdateStatements revision entry).filterMap Statement.insertedContent = [] := by
  unfold outdateStatements
  split <;> simp [Statement.insertedContent, List.filterMap_cons]

@[simp] theorem createdStatements_closedContent (node : CreatedNode) :
    (createdStatements revision node).filterMap Statement.closedContent = [] := by
  cases node.content <;> simp [createdStatements, Statement.closedContent]

@[simp] theorem createdStatements_insertedContent (node : CreatedNode) :
    (createdStatements revision node).filterMap Statement.insertedContent =
      (node.content.map fun body =>
        ({ node := node.record.id, revMin := revision, revMax := Revnum.head, data := body.data } :
          ContentRecord)).toList := by
  unfold createdStatements
  cases node.content <;> rfl

@[simp] theorem modifiedStatements_closedContent (entry : NodeId × ContentBody) :
    (modifiedStatements revision entry).filterMap Statement.closedContent = [entry.1] := by
  simp [modifiedStatements, Statement.closedContent]

@[simp] theorem modifiedStatements_insertedContent (entry : NodeId × ContentBody) :
    (modifiedStatements revision entry).filterMap Statement.insertedContent =
      [{ node := entry.1, revMin := revision, revMax := Revnum.head, data := entry.2.data }] :=
  rfl

theorem flatMap_const_nil {α β : Type} (l : List α) : l.flatMap (fun _ => ([] : List β)) = [] :=
  List.flatMap_eq_nil_iff.2 fun _ _ => rfl

variable (plan : Plan)

@[simp] theorem statements_closedNode :
    (plan.statements revision).filterMap Statement.closedNode = plan.outdated.map (·.1) := by
  simp [statements, List.filterMap_flatMap, ← List.map_eq_flatMap, flatMap_const_nil]

@[simp] theorem statements_insertedNode :
    (plan.statements revision).filterMap Statement.insertedNode = plan.created.map (·.record) := by
  simp [statements, List.filterMap_flatMap, ← List.map_eq_flatMap, flatMap_const_nil]

/-- A plan closes the content of the files it outdates and of those it modifies. -/
theorem statements_closedContent :
    (plan.statements revision).filterMap Statement.closedContent = plan.closedContents := by
  unfold closedContents
  simp only [statements, List.filterMap_append, List.filterMap_flatMap,
    outdateStatements_closedContent, createdStatements_closedContent, flatMap_const_nil,
    modifiedStatements_closedContent, List.append_nil, ← List.map_eq_flatMap]
  congr 1
  induction plan.outdated with
  | nil => rfl
  | cons entry rest ih => by_cases isFile : entry.2.isFile <;> simp [isFile, ih]

/-- A plan inserts the content of the files it creates with content and of those it modifies, each
opening at the revision. -/
theorem statements_insertedContent :
    (plan.statements revision).filterMap Statement.insertedContent = plan.contentRows revision := by
  unfold contentRows
  simp only [statements, List.filterMap_append, List.filterMap_flatMap,
    outdateStatements_insertedContent, createdStatements_insertedContent, flatMap_const_nil,
    modifiedStatements_insertedContent, List.nil_append, ← List.map_eq_flatMap]
  congr 1
  induction plan.created with
  | nil => rfl
  | cons node rest ih => cases content : node.content <;> simp [content, ih]

@[simp] theorem statements_insertedRevision :
    (plan.statements revision).filterMap Statement.insertedRevision = [] := by
  simp [statements, List.filterMap_flatMap, flatMap_const_nil]

/-- Every window a plan closes, it closes at the revision before. -/
theorem revMax_of_outdateNode_mem {node : NodeId} {revMax : Revnum}
    (mem : Statement.outdateNode node revMax ∈ plan.statements revision) :
    revMax = Revnum.prev revision := by
  simp only [statements, List.mem_append, List.mem_flatMap] at mem
  rcases mem with (⟨entry, -, mem⟩ | ⟨node, -, mem⟩) | ⟨entry, -, mem⟩
  · unfold outdateStatements at mem
    split at mem <;> simp_all
  · cases content : node.content <;> simp_all [createdStatements]
  · simp [modifiedStatements] at mem

/-- Every content window a plan closes, it closes at the revision before. -/
theorem revMax_of_outdateContent_mem {node : NodeId} {revMax : Revnum}
    (mem : Statement.outdateContent node revMax ∈ plan.statements revision) :
    revMax = Revnum.prev revision := by
  simp only [statements, List.mem_append, List.mem_flatMap] at mem
  rcases mem with (⟨entry, -, mem⟩ | ⟨node, -, mem⟩) | ⟨entry, -, mem⟩
  · unfold outdateStatements at mem
    split at mem <;> simp_all
  · cases content : node.content <;> simp_all [createdStatements]
  · simp_all [modifiedStatements]

/-- Every content row a plan inserts opens at the revision. -/
theorem revMin_of_insertContent_mem {node : NodeId} {revMin : Revnum} {data : Option String}
    (mem : Statement.insertContent node revMin data ∈ plan.statements revision) :
    revMin = revision := by
  simp only [statements, List.mem_append, List.mem_flatMap] at mem
  rcases mem with (⟨entry, -, mem⟩ | ⟨node, -, mem⟩) | ⟨entry, -, mem⟩
  · unfold outdateStatements at mem
    split at mem <;> simp_all
  · cases content : node.content <;> simp_all [createdStatements]
  · simp_all [modifiedStatements]

/-- Every row a plan inserts is the record of a node it created. -/
theorem mem_created_of_insertNode_mem {record : NodeRecord}
    (mem : Statement.insertNode record ∈ plan.statements revision) :
    ∃ node ∈ plan.created, node.record = record := by
  simp only [statements, List.mem_append, List.mem_flatMap] at mem
  rcases mem with (⟨entry, -, mem⟩ | ⟨node, nodeMem, mem⟩) | ⟨entry, -, mem⟩
  · unfold outdateStatements at mem
    split at mem <;> simp_all
  · refine ⟨node, nodeMem, ?_⟩
    cases content : node.content <;> simp_all [createdStatements]
  · simp [modifiedStatements] at mem

end

end Plan

namespace Tables

/-- A node row once the live windows of `closed` that opened by `revMax` end there. -/
def closeAt (closed : List NodeId) (revMax : Revnum) (row : NodeRecord) : NodeRecord :=
  if row.id ∈ closed ∧ row.revMax = Revnum.head ∧ row.revMin ≤ revMax then
    { row with revMax := revMax }
  else row

@[simp] theorem closeAt_nil (revMax : Revnum) : closeAt [] revMax = id := by
  funext row
  simp [closeAt]

@[simp] theorem id_closeAt (closed : List NodeId) (revMax : Revnum) (row : NodeRecord) :
    (closeAt closed revMax row).id = row.id := by
  unfold closeAt
  split <;> rfl

@[simp] theorem revMin_closeAt (closed : List NodeId) (revMax : Revnum) (row : NodeRecord) :
    (closeAt closed revMax row).revMin = row.revMin := by
  unfold closeAt
  split <;> rfl

theorem closeAt_congr {closed closed' : List NodeId} (same : ∀ id, id ∈ closed ↔ id ∈ closed')
    (revMax : Revnum) : closeAt closed revMax = closeAt closed' revMax := by
  funext row
  simp [closeAt, same]

/-- Closing the window of `node` and then those of `closed` closes those of `node :: closed`:
a window closed once is no longer live. -/
theorem closeAt_closesNode {closed : List NodeId} {node : NodeId} {revMax : Revnum}
    (notHead : revMax ≠ Revnum.head) (row : NodeRecord) :
    closeAt closed revMax
        (if closesNode node revMax row then { row with revMax := revMax } else row) =
      closeAt (node :: closed) revMax row := by
  by_cases closing : closesNode node revMax row = true
  · rw [if_pos closing]
    simp only [closesNode, Bool.and_eq_true, beq_iff_eq, decide_eq_true_eq] at closing
    obtain ⟨⟨same, live⟩, opened⟩ := closing
    simp [closeAt, same, live, opened, notHead]
  · rw [if_neg closing]
    simp only [closesNode, Bool.and_eq_true, beq_iff_eq, decide_eq_true_eq, not_and] at closing
    unfold closeAt
    by_cases same : row.id = node
    · have notLive : ¬(row.revMax = Revnum.head ∧ row.revMin ≤ revMax) :=
        fun ⟨live, opened⟩ => closing ⟨same, live⟩ opened
      rw [if_neg fun h => notLive h.2, if_neg fun h => notLive h.2]
    · simp [same]

/-- A content row once the live content windows of `closed` that opened by `revMax` end there. -/
def closeContentsAt (closed : List NodeId) (revMax : Revnum) (row : ContentRecord) : ContentRecord :=
  if row.node ∈ closed ∧ row.revMax = Revnum.head ∧ row.revMin ≤ revMax then
    { row with revMax := revMax }
  else row

@[simp] theorem closeContentsAt_nil (revMax : Revnum) : closeContentsAt [] revMax = id := by
  funext row
  simp [closeContentsAt]

@[simp] theorem node_closeContentsAt (closed : List NodeId) (revMax : Revnum) (row : ContentRecord) :
    (closeContentsAt closed revMax row).node = row.node := by
  unfold closeContentsAt
  split <;> rfl

@[simp] theorem revMin_closeContentsAt (closed : List NodeId) (revMax : Revnum)
    (row : ContentRecord) : (closeContentsAt closed revMax row).revMin = row.revMin := by
  unfold closeContentsAt
  split <;> rfl

@[simp] theorem data_closeContentsAt (closed : List NodeId) (revMax : Revnum) (row : ContentRecord) :
    (closeContentsAt closed revMax row).data = row.data := by
  unfold closeContentsAt
  split <;> rfl

theorem closeContentsAt_congr {closed closed' : List NodeId}
    (same : ∀ id, id ∈ closed ↔ id ∈ closed') (revMax : Revnum) :
    closeContentsAt closed revMax = closeContentsAt closed' revMax := by
  funext row
  simp [closeContentsAt, same]

/-- Closing the live content of `node` and then that of `closed` closes that of `node :: closed`:
a window closed once is no longer live. -/
theorem closeContentsAt_closesContent {closed : List NodeId} {node : NodeId} {revMax : Revnum}
    (notHead : revMax ≠ Revnum.head) (row : ContentRecord) :
    closeContentsAt closed revMax
        (if closesContent node revMax row then { row with revMax := revMax } else row) =
      closeContentsAt (node :: closed) revMax row := by
  by_cases closing : closesContent node revMax row = true
  · rw [if_pos closing]
    simp only [closesContent, Bool.and_eq_true, beq_iff_eq, decide_eq_true_eq] at closing
    obtain ⟨⟨same, live⟩, opened⟩ := closing
    simp [closeContentsAt, same, live, opened, notHead]
  · rw [if_neg closing]
    simp only [closesContent, Bool.and_eq_true, beq_iff_eq, decide_eq_true_eq, not_and] at closing
    unfold closeContentsAt
    by_cases same : row.node = node
    · have notLive : ¬(row.revMax = Revnum.head ∧ row.revMin ≤ revMax) :=
        fun ⟨live, opened⟩ => closing ⟨same, live⟩ opened
      rw [if_neg fun h => notLive h.2, if_neg fun h => notLive h.2]
    · simp [same]

/-! ## One write -/

section
variable {t t₁ : Tables}

theorem write_of_exec {statement : Statement} (stepped : t.exec statement = (t₁, .ok ())) :
    ∃ changes, t.write statement = (t₁, .ok changes) := by
  unfold exec at stepped
  cases written : t.write statement with
  | mk tables result =>
    rw [written] at stepped
    cases result with
    | ok changes =>
      simp only [Prod.mk.injEq] at stepped
      rw [stepped.1]
      exact ⟨changes, rfl⟩
    | error message => simp at stepped

theorem exec_insertRevision {info : RevisionInfo}
    (stepped : t.exec (.insertRevision info) = (t₁, .ok ())) :
    t₁ = { t with revisions := t.revisions ++ [info] } := by
  obtain ⟨changes, written⟩ := write_of_exec stepped
  simp only [write] at written
  split at written
  · simp at written
  · simp only [Prod.mk.injEq] at written
    exact written.1.symm

theorem exec_insertNode {record : NodeRecord} (stepped : t.exec (.insertNode record) = (t₁, .ok ())) :
    t₁ = { t with nodes := t.nodes ++ [record] } ∧ record.id ∉ t.nodes.map (·.id) := by
  obtain ⟨changes, written⟩ := write_of_exec stepped
  simp only [write] at written
  split at written
  · simp at written
  split at written
  · simp at written
  rename_i fresh
  simp only [Prod.mk.injEq] at written
  refine ⟨written.1.symm, fun mem => ?_⟩
  obtain ⟨row, rowMem, same⟩ := List.mem_map.1 mem
  exact fresh (List.any_eq_true.2 ⟨row, rowMem, by simp [same]⟩)

theorem exec_outdateNode {node : NodeId} {revMax : Revnum}
    (stepped : t.exec (.outdateNode node revMax) = (t₁, .ok ())) :
    t₁ = { t with nodes := t.nodes.map fun row =>
      if closesNode node revMax row then { row with revMax := revMax } else row } := by
  obtain ⟨changes, written⟩ := write_of_exec stepped
  unfold write at written
  exact (Prod.mk.inj written).1.symm

theorem exec_insertContent {node : NodeId} {revMin : Revnum} {data : Option String}
    (stepped : t.exec (.insertContent node revMin data) = (t₁, .ok ())) :
    t₁.nodes = t.nodes ∧ t₁.revisions = t.revisions := by
  obtain ⟨changes, written⟩ := write_of_exec stepped
  simp only [write] at written
  split at written
  · simp at written
  split at written
  · simp at written
  simp only [Prod.mk.injEq] at written
  rw [← written.1]
  exact ⟨rfl, rfl⟩

theorem exec_outdateContent {node : NodeId} {revMax : Revnum}
    (stepped : t.exec (.outdateContent node revMax) = (t₁, .ok ())) :
    t₁.nodes = t.nodes ∧ t₁.revisions = t.revisions := by
  obtain ⟨changes, written⟩ := write_of_exec stepped
  unfold write at written
  rw [← (Prod.mk.inj written).1]
  exact ⟨rfl, rfl⟩


theorem exec_insertContent_contents {node : NodeId} {revMin : Revnum} {data : Option String}
    (stepped : t.exec (.insertContent node revMin data) = (t₁, .ok ())) :
    t₁.contents = t.contents ++
      [{ node := node, revMin := revMin, revMax := Revnum.head, data := data }] := by
  obtain ⟨changes, written⟩ := write_of_exec stepped
  simp only [write] at written
  split at written
  · simp at written
  split at written
  · simp at written
  simp only [Prod.mk.injEq] at written
  rw [← written.1]

theorem exec_outdateContent_contents {node : NodeId} {revMax : Revnum}
    (stepped : t.exec (.outdateContent node revMax) = (t₁, .ok ())) :
    t₁.contents = t.contents.map fun row =>
      if closesContent node revMax row then { row with revMax := revMax } else row := by
  obtain ⟨changes, written⟩ := write_of_exec stepped
  unfold write at written
  rw [← (Prod.mk.inj written).1]

end

/-! ## Writes in order -/

/-- Writes that all ran: the revision rows they insert follow the ones before, and the node ids
stay distinct. -/
theorem execAll_revisions_ids :
    ∀ {statements : List Statement} {t t' : Tables}, t.execAll statements = (t', none) →
      t'.revisions = t.revisions ++ statements.filterMap Statement.insertedRevision ∧
        ((t.nodes.map (·.id)).Nodup → (t'.nodes.map (·.id)).Nodup)
  | [], t, t', ran => by
    simp only [execAll, Prod.mk.injEq] at ran
    rw [← ran.1]
    exact ⟨by simp, id⟩
  | statement :: rest, t, t', ran => by
    cases stepped : t.exec statement with
    | mk t₁ result =>
    rw [execAll, stepped] at ran
    cases result with
    | error e => simp at ran
    | ok u =>
    obtain ⟨revisions, ids⟩ := execAll_revisions_ids ran
    cases statement with
    | insertRevision info =>
      rw [exec_insertRevision stepped] at revisions ids
      exact ⟨by simpa [Statement.insertedRevision, List.filterMap_cons] using revisions, ids⟩
    | insertNode record =>
      obtain ⟨rfl, fresh⟩ := exec_insertNode stepped
      refine ⟨by simpa [Statement.insertedRevision, List.filterMap_cons] using revisions,
        fun nodup => ids ?_⟩
      simp only [List.map_append, List.map_cons, List.map_nil, List.nodup_append,
        List.nodup_cons, List.not_mem_nil, not_false_eq_true, List.nodup_nil, and_self,
        List.mem_singleton, true_and]
      refine ⟨nodup, ?_⟩
      rintro id mem _ rfl same
      exact fresh (same ▸ mem)
    | outdateNode node revMax =>
      rw [exec_outdateNode stepped] at revisions ids
      refine ⟨by simpa [Statement.insertedRevision, List.filterMap_cons] using revisions,
        fun nodup => ids ?_⟩
      have sameIds : ∀ row : NodeRecord,
          (if closesNode node revMax row then { row with revMax := revMax } else row).id = row.id := by
        intro row
        split <;> rfl
      simpa [List.map_map, Function.comp_def, sameIds] using nodup
    | insertContent node revMin data =>
      obtain ⟨nodes, revisions₁⟩ := exec_insertContent stepped
      rw [revisions₁] at revisions
      rw [nodes] at ids
      exact ⟨by simpa [Statement.insertedRevision, List.filterMap_cons] using revisions, ids⟩
    | outdateContent node revMax =>
      obtain ⟨nodes, revisions₁⟩ := exec_outdateContent stepped
      rw [revisions₁] at revisions
      rw [nodes] at ids
      exact ⟨by simpa [Statement.insertedRevision, List.filterMap_cons] using revisions, ids⟩

/-- Writes that all ran, closing windows at `revMax` and inserting rows that open after it: the
rows before, with the closed windows ended at `revMax`, then the inserted rows. -/
theorem execAll_nodes {revMax : Revnum} (notHead : revMax ≠ Revnum.head) :
    ∀ {statements : List Statement} {t t' : Tables}, t.execAll statements = (t', none) →
      (∀ node r, Statement.outdateNode node r ∈ statements → r = revMax) →
      (∀ record, Statement.insertNode record ∈ statements → revMax < record.revMin) →
      t'.nodes.Perm (t.nodes.map (closeAt (statements.filterMap Statement.closedNode) revMax) ++
        statements.filterMap Statement.insertedNode)
  | [], t, t', ran, _, _ => by
    simp only [execAll, Prod.mk.injEq] at ran
    rw [← ran.1]
    simp
  | statement :: rest, t, t', ran, closing, opening => by
    cases stepped : t.exec statement with
    | mk t₁ result =>
    rw [execAll, stepped] at ran
    cases result with
    | error e => simp at ran
    | ok u =>
    have restPerm := execAll_nodes notHead ran
      (fun node r mem => closing node r (List.mem_cons_of_mem _ mem))
      (fun record mem => opening record (List.mem_cons_of_mem _ mem))
    cases statement with
    | insertNode record =>
      obtain ⟨rfl, -⟩ := exec_insertNode stepped
      have later := opening record List.mem_cons_self
      have kept : closeAt (rest.filterMap Statement.closedNode) revMax record = record := by
        have notOpened : ¬record.revMin ≤ revMax := Int.not_le.2 later
        simp [closeAt, notOpened]
      simpa [Statement.closedNode, Statement.insertedNode, List.filterMap_cons, kept] using restPerm
    | outdateNode node r =>
      obtain rfl := closing node r List.mem_cons_self
      rw [exec_outdateNode stepped] at restPerm
      simpa [Statement.closedNode, Statement.insertedNode, List.filterMap_cons, List.map_map,
        Function.comp_def, closeAt_closesNode notHead] using restPerm
    | insertRevision info =>
      rw [exec_insertRevision stepped] at restPerm
      simpa [Statement.closedNode, Statement.insertedNode, List.filterMap_cons] using restPerm
    | insertContent node revMin data =>
      rw [(exec_insertContent stepped).1] at restPerm
      simpa [Statement.closedNode, Statement.insertedNode, List.filterMap_cons] using restPerm
    | outdateContent node revMax =>
      rw [(exec_outdateContent stepped).1] at restPerm
      simpa [Statement.closedNode, Statement.insertedNode, List.filterMap_cons] using restPerm

/-- Writes that all ran, closing content at `revMax` and inserting content rows that open after it:
the content rows before, with the closed ones ended at `revMax`, then the inserted rows. -/
theorem execAll_contentRows {revMax : Revnum} (notHead : revMax ≠ Revnum.head) :
    ∀ {statements : List Statement} {t t' : Tables}, t.execAll statements = (t', none) →
      (∀ node r, Statement.outdateContent node r ∈ statements → r = revMax) →
      (∀ node r data, Statement.insertContent node r data ∈ statements → revMax < r) →
      t'.contents.Perm (t.contents.map
          (closeContentsAt (statements.filterMap Statement.closedContent) revMax) ++
        statements.filterMap Statement.insertedContent)
  | [], t, t', ran, _, _ => by
    simp only [execAll, Prod.mk.injEq] at ran
    rw [← ran.1]
    simp
  | statement :: rest, t, t', ran, closing, opening => by
    cases stepped : t.exec statement with
    | mk t₁ result =>
    rw [execAll, stepped] at ran
    cases result with
    | error e => simp at ran
    | ok u =>
    have restPerm := execAll_contentRows notHead ran
      (fun node r mem => closing node r (List.mem_cons_of_mem _ mem))
      (fun node r data mem => opening node r data (List.mem_cons_of_mem _ mem))
    cases statement with
    | insertNode record =>
      obtain ⟨rfl, -⟩ := exec_insertNode stepped
      simpa [Statement.closedContent, Statement.insertedContent, List.filterMap_cons] using restPerm
    | outdateNode node r =>
      rw [exec_outdateNode stepped] at restPerm
      simpa [Statement.closedContent, Statement.insertedContent, List.filterMap_cons] using restPerm
    | insertRevision info =>
      rw [exec_insertRevision stepped] at restPerm
      simpa [Statement.closedContent, Statement.insertedContent, List.filterMap_cons] using restPerm
    | insertContent node revMin data =>
      -- The row opens after `revMax`, so no later write closes it.
      have later := opening node revMin data List.mem_cons_self
      have kept : closeContentsAt (rest.filterMap Statement.closedContent) revMax
          { node := node, revMin := revMin, revMax := Revnum.head, data := data } =
            { node := node, revMin := revMin, revMax := Revnum.head, data := data } := by
        have notOpened : ¬revMin ≤ revMax := Int.not_le.2 later
        simp [closeContentsAt, notOpened]
      rw [exec_insertContent_contents stepped] at restPerm
      simpa [Statement.closedContent, Statement.insertedContent, List.filterMap_cons, kept]
        using restPerm
    | outdateContent node r =>
      obtain rfl := closing node r List.mem_cons_self
      rw [exec_outdateContent_contents stepped] at restPerm
      simpa [Statement.closedContent, Statement.insertedContent, List.filterMap_cons, List.map_map,
        Function.comp_def, closeContentsAt_closesContent notHead] using restPerm

theorem execAll_singleton {t t' : Tables} {statement : Statement}
    (ran : t.execAll [statement] = (t', none)) : t.exec statement = (t', .ok ()) := by
  unfold execAll at ran
  cases stepped : t.exec statement with
  | mk t₁ result =>
    rw [stepped] at ran
    cases result with
    | ok u =>
      simp only [execAll, Prod.mk.injEq] at ran
      rw [ran.1]
    | error e => simp at ran

/-- What committing `changeSet` with `plan` did to the tables `t`, which became `t'`. -/
structure Committed (t : Tables) (changeSet : ChangeSet) (plan : Plan) (t' : Tables) : Prop where
  range : 1 ≤ changeSet.revision ∧ changeSet.revision ≠ Revnum.head
  revisions : t'.revisions = t.revisions ++ [changeSet.info]
  nodes : t'.nodes.Perm (t.nodes.map (closeAt (plan.outdated.map (·.1))
    (Revnum.prev changeSet.revision)) ++ plan.created.map (·.record))
  ids : (t.nodes.map (·.id)).Nodup → (t'.nodes.map (·.id)).Nodup
  opened : ∀ node ∈ plan.created,
    node.record.revMin = changeSet.revision ∧ node.record.revMax = Revnum.head

end Tables

namespace Store

variable {engine : Engine} {lawful : engine.Lawful} {store : Store} {t : Tables}

/-- A commit that succeeds on a lawful engine keeps the tables and ends the transaction. -/
theorem Holds.commit_eq_ok {committed : Store} (holds : store.Holds lawful t true)
    (succeeded : store.commit = (committed, .ok ())) : committed.Holds lawful t false := by
  cases keys : t.keysHold with
  | true =>
    obtain ⟨committedHolds, -⟩ := holds.commit keys
    rwa [succeeded] at committedHolds
  | false =>
    obtain ⟨result, -⟩ := lawful.commit store.conn t holds.tables holds.inTransaction
    rw [keys] at result
    unfold Store.commit at succeeded
    rw [holds.engine] at succeeded
    generalize engine.commit store.conn = outcome at result succeeded
    obtain ⟨conn, answer⟩ := outcome
    simp only at result succeeded
    subst result
    simp at succeeded

end Store

namespace Indexer

variable {engine : Engine} {lawful : engine.Lawful}

/-- A revision that commits on a lawful engine: the ingestor applied and planned it against the
tables with the revision row, and the tables after the commit, content rows included, are what
the plan says. -/
theorem writeRevision_committed {indexer : Indexer} {changeSet : ChangeSet} {ingestor : Ingestor}
    {store : Store} {summary : RevisionSummary} {t : Tables}
    (holds : indexer.store.Holds lawful t false) (bounded : changeSet.revision ≤ Revnum.head)
    (written : indexer.writeRevision changeSet = (ingestor, .ok (store, summary))) :
    ∃ opened applied plan t',
      opened.Holds lawful { t with revisions := t.revisions ++ [changeSet.info] } true ∧
      indexer.ingestor.run (Ingestor.apply opened changeSet) = (applied, .ok ()) ∧
      applied.run Ingestor.takePlan = (ingestor, .ok plan) ∧
      store.Holds lawful t' false ∧ t.Committed changeSet plan t' ∧
      t'.contents.Perm (t.contents.map (Tables.closeContentsAt plan.closedContents
        (Revnum.prev changeSet.revision)) ++ plan.contentRows changeSet.revision) := by
  obtain ⟨tx, inserted, applied, plan, after, counts, began, insertedEq, applying, planning,
    writing, committing, -⟩ := writeRevision_eq_ok written
  obtain ⟨range, beginEq, -, revisionEq, pendingNil⟩ := Transaction.begin_eq_ok began
  have txHolds : tx.store.Holds lawful t true := by
    have opened := holds.begin.1
    rwa [beginEq] at opened
  obtain ⟨-, pendingSame, ranRevision⟩ := Transaction.insertRevision_ran insertedEq
  obtain ⟨ranPlan, flushed, openedRecords⟩ := writePlan_ran writing
  -- The revision row runs on its own, before any writer.
  obtain ⟨executed₀, ran₀, perm₀⟩ := ranRevision.executed
  rw [pendingSame, pendingNil, List.append_nil, List.nil_append, List.perm_singleton] at perm₀
  subst perm₀
  obtain ⟨insertedHolds, result₀⟩ := txHolds.execAll [.insertRevision changeSet.info]
  rw [ran₀] at insertedHolds result₀
  cases revisionRan : t.execAll [.insertRevision changeSet.info] with
  | mk t₁ failure₀ =>
  rw [revisionRan] at insertedHolds result₀
  simp only at insertedHolds result₀
  subst result₀
  have revisionRow := Tables.exec_insertRevision (Tables.execAll_singleton revisionRan)
  subst revisionRow
  -- Then the plan's writes, in whatever order the writers ran them.
  obtain ⟨executed, ran, perm⟩ := ranPlan.executed
  rw [flushed, pendingSame, pendingNil, List.append_nil, List.nil_append] at perm
  rw [ranRevision.revision, revisionEq] at perm openedRecords
  obtain ⟨afterHolds, result⟩ := insertedHolds.execAll executed
  rw [ran] at afterHolds result
  cases tablesRan : Tables.execAll { t with revisions := t.revisions ++ [changeSet.info] } executed with
  | mk t' failure =>
  rw [tablesRan] at afterHolds result
  simp only at afterHolds result
  subst result
  have prevEq := Revnum.prev_eq_sub_one range.1 bounded
  have notHead : Revnum.prev changeSet.revision ≠ Revnum.head := by
    rw [prevEq]
    unfold Revnum.head at bounded ⊢
    unfold Revnum at bounded ⊢
    omega
  have closing : ∀ node r, Statement.outdateNode node r ∈ executed →
      r = Revnum.prev changeSet.revision := fun node r mem =>
    Plan.revMax_of_outdateNode_mem _ plan (perm.mem_iff.1 mem)
  have opening : ∀ record, Statement.insertNode record ∈ executed →
      Revnum.prev changeSet.revision < record.revMin := by
    intro record mem
    obtain ⟨node, nodeMem, rfl⟩ := Plan.mem_created_of_insertNode_mem _ plan (perm.mem_iff.1 mem)
    rw [(openedRecords node nodeMem).1, prevEq]
    unfold Revnum
    omega
  have nodes := Tables.execAll_nodes notHead tablesRan closing opening
  have contents := Tables.execAll_contentRows notHead tablesRan
    (fun node r mem => Plan.revMax_of_outdateContent_mem _ plan (perm.mem_iff.1 mem))
    (fun node r data mem => by
      rw [Plan.revMin_of_insertContent_mem _ plan (perm.mem_iff.1 mem), prevEq]
      unfold Revnum
      omega)
  obtain ⟨revisions, ids⟩ := Tables.execAll_revisions_ids tablesRan
  have closedPerm := perm.filterMap Statement.closedNode
  have insertedPerm := perm.filterMap Statement.insertedNode
  have revisionPerm := perm.filterMap Statement.insertedRevision
  have closedContentPerm := perm.filterMap Statement.closedContent
  have insertedContentPerm := perm.filterMap Statement.insertedContent
  simp only [Plan.statements_closedNode, Plan.statements_insertedNode,
    Plan.statements_insertedRevision, List.perm_nil] at closedPerm insertedPerm revisionPerm
  rw [Plan.statements_closedContent] at closedContentPerm
  rw [Plan.statements_insertedContent] at insertedContentPerm
  rw [Tables.closeAt_congr (fun id => closedPerm.mem_iff)] at nodes
  rw [Tables.closeContentsAt_congr (fun id => closedContentPerm.mem_iff)] at contents
  refine ⟨inserted.store, applied, plan, t',
    insertedHolds, applying, planning, afterHolds.commit_eq_ok (Transaction.commit_eq_ok committing),
    ⟨range, by simpa [revisionPerm] using revisions, nodes.trans (insertedPerm.append_left _), ids,
      openedRecords⟩, contents.trans (insertedContentPerm.append_left _)⟩

/-- A revision that commits on a lawful engine: the tables after the commit are what the plan
says. -/
theorem writeRevision_tables {indexer : Indexer} {changeSet : ChangeSet} {ingestor : Ingestor}
    {store : Store} {summary : RevisionSummary} {t : Tables}
    (holds : indexer.store.Holds lawful t false) (bounded : changeSet.revision ≤ Revnum.head)
    (written : indexer.writeRevision changeSet = (ingestor, .ok (store, summary))) :
    ∃ opened applied plan t',
      opened.Holds lawful { t with revisions := t.revisions ++ [changeSet.info] } true ∧
      indexer.ingestor.run (Ingestor.apply opened changeSet) = (applied, .ok ()) ∧
      applied.run Ingestor.takePlan = (ingestor, .ok plan) ∧
      store.Holds lawful t' false ∧ t.Committed changeSet plan t' := by
  obtain ⟨opened, applied, plan, t', openedHolds, applying, planning, stored, committed, -⟩ :=
    writeRevision_committed holds bounded written
  exact ⟨opened, applied, plan, t', openedHolds, applying, planning, stored, committed⟩

end Indexer

end TreeHistory
