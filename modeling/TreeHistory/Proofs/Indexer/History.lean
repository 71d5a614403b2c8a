import TreeHistory.Proofs.Store.Committed
import TreeHistory.Proofs.Ingest.Delta

/-!
# The committed history and the rows that record it

A run commits revisions, each with the live tree right after its commit; the tree as of a revision
is that of the last commit at or before it (`History.treeAt`). The node table records the history
(`Tables.Records`) when at every revision the rows holding it are the records of the tree as of
it; committing one more revision keeps this (`Tables.Records.commit`).
-/

namespace TreeHistory

/-- A committed revision and the live tree right after its commit. -/
structure Commit where
  revision : Revnum
  tree : LiveTree

/-- The commits of a run, in order. -/
abbrev History := List Commit

namespace History

/-- The revisions committed, in order. -/
def revisions (history : History) : List Revnum := history.map (·.revision)

/-- The tree as of revision `r`: that of the last commit at or before `r`, or the empty tree. -/
def treeAt (history : History) (r : Revnum) : LiveTree :=
  ((history.filter fun commit => decide (commit.revision ≤ r)).getLast?.map (·.tree)).getD
    LiveTree.empty

/-- The tree of the last commit, or the empty tree. -/
def current (history : History) : LiveTree :=
  (history.getLast?.map (·.tree)).getD LiveTree.empty

/-- A history a run can commit: increasing revisions inside the stored range, and well-formed
trees. -/
structure Valid (history : History) : Prop where
  increasing : history.revisions.Pairwise (· < ·)
  range : ∀ commit ∈ history, 1 ≤ commit.revision ∧ commit.revision < Revnum.head
  wellFormed : ∀ commit ∈ history, commit.tree.WellFormed

@[simp] theorem revisions_append (history : History) (commit : Commit) :
    revisions (history ++ [commit]) = revisions history ++ [commit.revision] := by
  simp [revisions]

theorem mem_revisions {history : History} {r : Revnum} :
    r ∈ revisions history ↔ ∃ commit ∈ history, commit.revision = r := by
  simp [revisions]

@[simp] theorem treeAt_nil (r : Revnum) : treeAt [] r = LiveTree.empty := rfl

@[simp] theorem current_append (history : History) (commit : Commit) :
    current (history ++ [commit]) = commit.tree := by
  simp [current]

/-- A later commit changes the tree from its revision on. -/
theorem treeAt_append (history : History) (commit : Commit) (r : Revnum) :
    treeAt (history ++ [commit]) r = if commit.revision ≤ r then commit.tree else treeAt history r := by
  unfold treeAt
  by_cases reached : commit.revision ≤ r
  · simp [List.filter_append, reached]
  · simp [List.filter_append, reached]

/-- From the last revision on, the tree is the current one. -/
theorem treeAt_of_le {history : History} {r : Revnum}
    (reached : ∀ commit ∈ history, commit.revision ≤ r) : treeAt history r = current history := by
  unfold treeAt current
  rw [List.filter_eq_self.2 fun commit mem => decide_eq_true (reached commit mem)]

variable {history : History}

theorem valid_nil : Valid [] where
  increasing := List.Pairwise.nil
  range _ mem := nomatch mem
  wellFormed _ mem := nomatch mem

theorem Valid.append (valid : Valid history) {commit : Commit}
    (later : ∀ earlier ∈ history, earlier.revision < commit.revision)
    (range : 1 ≤ commit.revision ∧ commit.revision < Revnum.head)
    (wellFormed : commit.tree.WellFormed) : Valid (history ++ [commit]) where
  increasing := by
    rw [revisions_append, List.pairwise_append]
    refine ⟨valid.increasing, List.pairwise_singleton _ _, ?_⟩
    intro r rMem r' r'Mem
    obtain ⟨earlier, earlierMem, rfl⟩ := mem_revisions.1 rMem
    rw [List.mem_singleton.1 r'Mem]
    exact later earlier earlierMem
  range := by
    intro earlier mem
    rcases List.mem_append.1 mem with mem | mem
    · exact valid.range earlier mem
    · rw [List.mem_singleton.1 mem]
      exact range
  wellFormed := by
    intro earlier mem
    rcases List.mem_append.1 mem with mem | mem
    · exact valid.wellFormed earlier mem
    · rw [List.mem_singleton.1 mem]
      exact wellFormed

theorem Valid.mem_revisions (valid : Valid history) {r : Revnum} (mem : r ∈ revisions history) :
    1 ≤ r ∧ r < Revnum.head := by
  obtain ⟨commit, commitMem, rfl⟩ := History.mem_revisions.1 mem
  exact valid.range commit commitMem

theorem Valid.current_wellFormed (valid : Valid history) : (current history).WellFormed := by
  unfold current
  cases last : history.getLast? with
  | none => exact LiveTree.WellFormed.empty
  | some commit => exact valid.wellFormed commit (List.mem_of_getLast? last)

theorem Valid.treeAt_wellFormed (valid : Valid history) (r : Revnum) :
    (treeAt history r).WellFormed := by
  unfold treeAt
  cases last : (history.filter fun commit => decide (commit.revision ≤ r)).getLast? with
  | none => exact LiveTree.WellFormed.empty
  | some commit => exact valid.wellFormed commit (List.mem_filter.1 (List.mem_of_getLast? last)).1

end History

namespace NodeRecord

/-- A row read as the record of a live node: its window left open. -/
def live (row : NodeRecord) : NodeRecord := { row with revMax := Revnum.head }

@[simp] theorem id_live (row : NodeRecord) : row.live.id = row.id := rfl

@[simp] theorem revMin_live (row : NodeRecord) : row.live.revMin = row.revMin := rfl

@[simp] theorem live_live (row : NodeRecord) : row.live.live = row.live := rfl

theorem live_of_revMax {row : NodeRecord} (isOpen : row.revMax = Revnum.head) : row.live = row := by
  cases row
  simp_all [live]

/-- Reading rows as live records keeps distinct ids apart. -/
theorem nodup_live_filter {rows : List NodeRecord} (ids : (rows.map (·.id)).Nodup)
    (p : NodeRecord → Bool) : ((rows.filter p).map live).Nodup := by
  refine List.Nodup.of_map (·.id) ?_
  rw [List.map_map]
  exact ids.sublist (List.filter_sublist.map _)

end NodeRecord

namespace Tables

open Revnum

@[simp] theorem live_closeAt (closed : List NodeId) (revMax : Revnum) (row : NodeRecord) :
    (closeAt closed revMax row).live = row.live := by
  unfold closeAt
  split <;> rfl

/-- Before the revision `R` that closes windows, a row holds the revisions it held. -/
theorem covers_closeAt_of_lt {closed : List NodeId} {R r : Revnum} (positive : 1 ≤ R)
    (bounded : R ≤ head) (before : r < R) (row : NodeRecord) :
    (closeAt closed (prev R) row).covers r = row.covers r := by
  unfold closeAt
  split
  · rename_i closing
    have below : r ≤ R - 1 := by
      unfold Revnum at before ⊢
      omega
    have belowHead : r ≤ head := by
      unfold Revnum at before bounded ⊢
      omega
    simp [NodeRecord.covers, prev_eq_sub_one positive bounded, closing.2.1, below, belowHead]
  · rfl

/-- A row that opened before `R` and was live or closed before `R - 1` holds a revision from `R`
on exactly when it was live and is not closed at `R`. -/
theorem covers_closeAt_of_le {closed : List NodeId} {R r : Revnum} (positive : 1 ≤ R)
    (bounded : R ≤ head) (reached : R ≤ r) (rBounded : r ≤ head) {row : NodeRecord}
    (opened : row.revMin < R) (closedBefore : row.revMax = head ∨ row.revMax + 1 < R) :
    (closeAt closed (prev R) row).covers r ↔ row.revMax = head ∧ row.id ∉ closed := by
  rw [prev_eq_sub_one positive bounded]
  unfold closeAt NodeRecord.covers
  unfold Revnum at *
  unfold head at *
  by_cases closing : row.id ∈ closed <;> split <;> simp_all <;> omega

end Tables

namespace Tables

open History

/-- The node rows record `history`: one row per node, and at every revision the rows that hold it
read as the records of the tree as of it. -/
structure Records (t : Tables) (history : History) : Prop where
  revisions : t.revisions.map (·.id) = History.revisions history
  ids : (t.nodes.map (·.id)).Nodup
  opened : ∀ row ∈ t.nodes, row.revMin ∈ History.revisions history
  closed : ∀ row ∈ t.nodes, row.revMax = Revnum.head ∨ row.revMax + 1 ∈ History.revisions history
  window : ∀ row ∈ t.nodes, row.revMin ≤ row.revMax
  covering : ∀ r ≤ Revnum.head,
    ((t.nodes.filter (·.covers r)).map NodeRecord.live).Perm (treeAt history r).records

variable {t t' : Tables} {history : History}

/-- Empty tables record the empty history. -/
theorem records_empty : ({} : Tables).Records [] where
  revisions := rfl
  ids := List.nodup_nil
  opened _ mem := nomatch mem
  closed _ mem := nomatch mem
  window _ mem := nomatch mem
  covering r _ := by
    rw [treeAt_nil]
    rfl

theorem Records.revMin_lt (records : t.Records history) (valid : history.Valid) {row : NodeRecord}
    (mem : row ∈ t.nodes) : row.revMin < Revnum.head :=
  (valid.mem_revisions (records.opened row mem)).2

theorem Records.revMax_le (records : t.Records history) (valid : history.Valid) {row : NodeRecord}
    (mem : row ∈ t.nodes) : row.revMax ≤ Revnum.head := by
  rcases records.closed row mem with isOpen | next
  · exact isOpen.le
  · have below := (valid.mem_revisions next).2
    unfold Revnum at below ⊢
    omega

/-- A row holds the last revision exactly when it is live: no window reaches past it. -/
theorem Records.covers_head (records : t.Records history) (valid : history.Valid)
    {row : NodeRecord} (mem : row ∈ t.nodes) : row.covers Revnum.head = row.isLive := by
  have opened := records.revMin_lt valid mem
  have closed := records.revMax_le valid mem
  simp only [NodeRecord.covers, NodeRecord.isLive, opened.le, decide_true, Bool.true_and]
  exact Bool.eq_iff_iff.2 (by simpa using ⟨fun reaches => le_antisymm closed reaches, fun isOpen => isOpen.ge⟩)

/-- The live rows are the records of the current tree. -/
theorem Records.live_perm (records : t.Records history) (valid : history.Valid) :
    (t.nodes.filter NodeRecord.isLive).Perm (current history).records := by
  have atHead := records.covering Revnum.head (le_refl _)
  rw [treeAt_of_le fun commit mem => (valid.range commit mem).2.le,
    List.filter_congr fun row mem => records.covers_head valid mem] at atHead
  have openRows : ∀ row ∈ t.nodes.filter NodeRecord.isLive, row.live = row := by
    intro row mem
    exact NodeRecord.live_of_revMax (by simpa [NodeRecord.isLive] using (List.mem_filter.1 mem).2)
  rwa [List.map_congr_left openRows, List.map_id'] at atHead

theorem Records.mem_current (records : t.Records history) (valid : history.Valid)
    {record : NodeRecord} :
    record ∈ (current history).records ↔ record ∈ t.nodes ∧ record.revMax = Revnum.head := by
  rw [← (records.live_perm valid).mem_iff, List.mem_filter]
  simp [NodeRecord.isLive]

/-- Committing a revision after every committed one, whose plan turns the records of the current
tree into those of `tree`, records `tree` as of that revision. -/
theorem Records.commit (records : t.Records history) (valid : history.Valid)
    {changeSet : ChangeSet} {plan : Plan} (committed : t.Committed changeSet plan t')
    (bounded : changeSet.revision ≤ Revnum.head)
    (later : ∀ commit ∈ history, commit.revision < changeSet.revision)
    {tree : LiveTree} (wf : tree.WellFormed)
    (planned : ∀ record, record ∈ tree.records ↔
      (record ∈ (current history).records ∧ record.id ∉ plan.outdated.map (·.1)) ∨
        record ∈ plan.created.map (·.record)) :
    t'.Records (history ++ [⟨changeSet.revision, tree⟩]) where
  revisions := by
    rw [committed.revisions, List.map_append, records.revisions, revisions_append]
    rfl
  ids := committed.ids records.ids
  opened := by
    intro row mem
    rw [revisions_append]
    rcases List.mem_append.1 (committed.nodes.mem_iff.1 mem) with old | new
    · obtain ⟨row₀, mem₀, rfl⟩ := List.mem_map.1 old
      rw [revMin_closeAt]
      exact List.mem_append_left _ (records.opened row₀ mem₀)
    · obtain ⟨node, nodeMem, rfl⟩ := List.mem_map.1 new
      rw [(committed.opened node nodeMem).1]
      exact List.mem_append_right _ (List.mem_singleton_self _)
  closed := by
    intro row mem
    rw [revisions_append]
    rcases List.mem_append.1 (committed.nodes.mem_iff.1 mem) with old | new
    · obtain ⟨row₀, mem₀, rfl⟩ := List.mem_map.1 old
      unfold closeAt
      split
      · -- A window closed now ends just before the new revision.
        right
        rw [Revnum.prev_eq_sub_one committed.range.1 bounded]
        dsimp only
        rw [Int.sub_add_cancel]
        exact List.mem_append_right _ (List.mem_singleton_self _)
      · rcases records.closed row₀ mem₀ with isOpen | next
        · exact .inl isOpen
        · exact .inr (List.mem_append_left _ next)
    · obtain ⟨node, nodeMem, rfl⟩ := List.mem_map.1 new
      exact .inl (committed.opened node nodeMem).2
  window := by
    intro row mem
    rcases List.mem_append.1 (committed.nodes.mem_iff.1 mem) with old | new
    · obtain ⟨row₀, mem₀, rfl⟩ := List.mem_map.1 old
      unfold closeAt
      split
      · rename_i closing
        exact closing.2.2
      · exact records.window row₀ mem₀
    · obtain ⟨node, nodeMem, rfl⟩ := List.mem_map.1 new
      obtain ⟨startsAt, isOpen⟩ := committed.opened node nodeMem
      rw [startsAt, isOpen]
      exact bounded
  covering := by
    intro r rBounded
    have closedBefore : ∀ row ∈ t.nodes, row.revMax = Revnum.head ∨ row.revMax + 1 < changeSet.revision := by
      intro row mem
      rcases records.closed row mem with isOpen | next
      · exact .inl isOpen
      · obtain ⟨commit, commitMem, reads⟩ := History.mem_revisions.1 next
        exact .inr (reads ▸ later commit commitMem)
    have openedBefore : ∀ row ∈ t.nodes, row.revMin < changeSet.revision := by
      intro row mem
      obtain ⟨commit, commitMem, reads⟩ := History.mem_revisions.1 (records.opened row mem)
      exact reads ▸ later commit commitMem
    rw [treeAt_append]
    split
    · -- From the new revision on, the rows read as the records of the new tree.
      rename_i reached
      refine (List.perm_ext_iff_of_nodup (NodeRecord.nodup_live_filter (committed.ids records.ids) _)
        (List.Nodup.of_map _ wf.records_ids_nodup)).2 fun record => ?_
      rw [planned record, records.mem_current valid]
      simp only [List.mem_map, List.mem_filter, (committed.nodes.mem_iff)]
      constructor
      · rintro ⟨row, ⟨mem, holds⟩, rfl⟩
        rcases List.mem_append.1 mem with old | new
        · obtain ⟨row₀, mem₀, rfl⟩ := List.mem_map.1 old
          obtain ⟨isOpen, notClosed⟩ := (covers_closeAt_of_le committed.range.1 bounded reached
            rBounded (openedBefore row₀ mem₀) (closedBefore row₀ mem₀)).1 holds
          rw [live_closeAt, NodeRecord.live_of_revMax isOpen]
          exact .inl ⟨⟨mem₀, isOpen⟩, by simpa using notClosed⟩
        · obtain ⟨node, nodeMem, rfl⟩ := List.mem_map.1 new
          exact .inr ⟨node, nodeMem, (NodeRecord.live_of_revMax (committed.opened node nodeMem).2).symm⟩
      · rintro (⟨⟨mem₀, isOpen⟩, notClosed⟩ | ⟨node, nodeMem, rfl⟩)
        · refine ⟨closeAt (plan.outdated.map (·.1)) (Revnum.prev changeSet.revision) record,
            ⟨List.mem_append_left _ (List.mem_map_of_mem mem₀), ?_⟩,
            (live_closeAt _ _ _).trans (NodeRecord.live_of_revMax isOpen)⟩
          exact (covers_closeAt_of_le committed.range.1 bounded reached rBounded
            (openedBefore record mem₀) (closedBefore record mem₀)).2 ⟨isOpen, by simpa using notClosed⟩
        · obtain ⟨startsAt, isOpen⟩ := committed.opened node nodeMem
          refine ⟨node.record, ⟨List.mem_append_right _ (List.mem_map_of_mem nodeMem), ?_⟩,
            NodeRecord.live_of_revMax isOpen⟩
          simp [NodeRecord.covers, startsAt, isOpen, reached, rBounded]
    · -- Before it, the closed windows still hold what they held and the new rows hold nothing.
      rename_i before
      have earlier : r < changeSet.revision := lt_of_not_ge before
      have unopened : (plan.created.map (·.record)).filter (·.covers r) = [] := by
        refine List.filter_eq_nil_iff.2 fun row mem => ?_
        obtain ⟨node, nodeMem, rfl⟩ := List.mem_map.1 mem
        simp [NodeRecord.covers, (committed.opened node nodeMem).1, before]
      refine List.Perm.trans ((committed.nodes.filter _).map _) ?_
      rw [List.filter_append, unopened, List.append_nil, List.filter_map, List.map_map]
      have closedLater : ((·.covers r) ∘ closeAt (plan.outdated.map (·.1)) (Revnum.prev changeSet.revision)) =
          (·.covers r) := by
        funext row
        exact covers_closeAt_of_lt committed.range.1 bounded earlier row
      have readLive : (NodeRecord.live ∘ closeAt (plan.outdated.map (·.1)) (Revnum.prev changeSet.revision)) =
          NodeRecord.live := by
        funext row
        exact live_closeAt _ _ row
      rw [closedLater, readLive]
      exact records.covering r rBounded

end Tables

end TreeHistory
