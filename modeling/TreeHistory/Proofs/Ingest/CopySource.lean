import TreeHistory.Proofs.Indexer.PointInTime

/-!
# Where a copy takes its source from

`resolveSource` answers from the live tree when the node at the path was present at the source
revision, and asks the store otherwise. While a revision is applied on top of committed tables,
both give the node the store has at the path as of the source revision
(`copy_source_is_node_at`): a live node that opened by then is a node of the committed tree, and
of the rows of one path at most one holds a revision (`Records.lookupPath_of_covers`).
-/

namespace TreeHistory

open History

/-! ## The store's rows of a path -/

namespace Tables

variable {engine : Engine} {lawful : engine.Lawful} {store : Store} {t t₀ : Tables}
  {txOpen : Bool} {history : History} {path : String} {r : Revnum}

/-- When a row of the path holds the revision, it is the newest row of the path that opened by
then, and the node at the path. -/
theorem Records.lookupPath_of_covers (holds : store.Holds lawful t txOpen)
    (sameNodes : t.nodes = t₀.nodes) (records : t₀.Records history) (valid : history.Valid)
    (bounded : r ≤ Revnum.head) {row : NodeRecord} (rowMem : row ∈ t₀.nodes)
    (atPath : row.path = path) (rowHolds : row.covers r) :
    store.lookupPath path r = .ok (some row) ∧ store.nodeAt path r = .ok (some row) := by
  have opened : row.revMin ≤ r := by
    simp only [NodeRecord.covers, Bool.and_eq_true, decide_eq_true_eq] at rowHolds
    exact rowHolds.1
  constructor
  · rcases holds.firstNode (fun rows (answers : t.Answers (.lookupPath path r) rows) => answers) with
      ⟨none, -⟩ | ⟨best, bestMem, read, newest⟩
    · exact absurd (List.filter_eq_nil_iff.1 none row (sameNodes ▸ rowMem)) (by simp [atPath, opened])
    · rw [Store.lookupPath, read]
      obtain ⟨bestRow, bestChecks⟩ := List.mem_filter.1 bestMem
      simp only [Bool.and_eq_true, beq_iff_eq, decide_eq_true_eq] at bestChecks
      rw [sameNodes] at bestRow
      -- The row holds the revision the newest row opened at, and so does the newest row.
      have later := newest row (List.mem_filter.2 ⟨sameNodes ▸ rowMem, by simp [atPath, opened]⟩)
      have rowHoldsThen : row.covers best.revMin := by
        simp only [NodeRecord.covers, Bool.and_eq_true, decide_eq_true_eq] at rowHolds ⊢
        constructor
        · rcases later with earlier | ⟨same, -⟩
          · exact earlier.le
          · exact same.le
        · exact le_trans bestChecks.2 rowHolds.2
      have same := records.eq_of_path valid rowMem bestRow (atPath.trans bestChecks.1.symm)
        (records.revMin_lt valid bestRow).le rowHoldsThen (records.covers_revMin bestRow)
      rw [same]
  · rcases holds.firstNode (fun rows (answers : t.Answers (.nodeAt path r) rows) => answers) with
      ⟨none, -⟩ | ⟨best, bestMem, read, -⟩
    · exact absurd (List.filter_eq_nil_iff.1 none row (sameNodes ▸ rowMem)) (by simp [atPath, rowHolds])
    · rw [Store.nodeAt, read]
      obtain ⟨bestRow, bestChecks⟩ := List.mem_filter.1 bestMem
      simp only [Bool.and_eq_true, beq_iff_eq] at bestChecks
      rw [sameNodes] at bestRow
      rw [records.eq_of_path valid bestRow rowMem (bestChecks.1.trans atPath.symm) bounded
        bestChecks.2 rowHolds]

/-- When no row of the path holds the revision, there is no node at the path. -/
theorem lookupPath_of_uncovered (holds : store.Holds lawful t txOpen)
    (uncovered : ∀ row ∈ t.nodes, row.path = path → row.covers r = false) :
    store.nodeAt path r = .ok none ∧
      ∃ found, store.lookupPath path r = .ok found ∧ ∀ row, found = some row → row.covers r = false := by
  constructor
  · rcases holds.firstNode (fun rows (answers : t.Answers (.nodeAt path r) rows) => answers) with
      ⟨-, read⟩ | ⟨best, bestMem, -, -⟩
    · exact read
    · obtain ⟨bestRow, bestChecks⟩ := List.mem_filter.1 bestMem
      simp only [Bool.and_eq_true, beq_iff_eq] at bestChecks
      rw [uncovered best bestRow bestChecks.1] at bestChecks
      exact absurd bestChecks.2 Bool.false_ne_true
  · rcases holds.firstNode (fun rows (answers : t.Answers (.lookupPath path r) rows) => answers) with
      ⟨-, read⟩ | ⟨best, bestMem, read, -⟩
    · exact ⟨none, read, fun row found => absurd found.symm (Option.some_ne_none row)⟩
    · obtain ⟨bestRow, bestChecks⟩ := List.mem_filter.1 bestMem
      simp only [Bool.and_eq_true, beq_iff_eq] at bestChecks
      refine ⟨some best, read, fun row found => ?_⟩
      rw [← Option.some.inj found]
      exact uncovered best bestRow bestChecks.1

end Tables

/-! ## The two paths of `resolveSource` -/

namespace Ingestor

variable {s : Ingestor} {store : Store} {R : Revnum} {copy : CopySource} {path : String}

/-- A live node at the source path that was there at the source revision is the source. -/
theorem run_resolveSource_fast (normalized : Path.normalize copy.path = .ok path)
    (positive : 1 ≤ copy.revision) (before : copy.revision < R) {node : LiveNode}
    (found : s.tree.find? path = some node) (present : node.revMin ≤ copy.revision) :
    s.run (resolveSource store R copy) = (s, .ok { id := node.id, kind := node.kind }) := by
  have inRange : ¬ (copy.revision < 1 ∨ copy.revision ≥ R) := by
    unfold Revnum at *
    omega
  simp [resolveSource, run_bind, normalized, inRange, found, present]

/-- Otherwise the store is asked. -/
theorem run_resolveSource_slow (normalized : Path.normalize copy.path = .ok path)
    (positive : 1 ≤ copy.revision) (before : copy.revision < R)
    (absent : ∀ node, s.tree.find? path = some node → copy.revision < node.revMin)
    {found : Option NodeRecord} (lookedUp : store.lookupPath path copy.revision = .ok found) :
    (∀ row, found = some row → row.covers copy.revision = true →
      s.run (resolveSource store R copy) = (s, .ok { id := row.id, kind := row.kind })) ∧
    ((∀ row, found = some row → row.covers copy.revision = false) →
      s.run (resolveSource store R copy) =
        (s, .error (.fatal (.predecessorUnresolved path copy.revision)))) := by
  have inRange : ¬ (copy.revision < 1 ∨ copy.revision ≥ R) := by
    unfold Revnum at *
    omega
  -- The live tree does not answer, so what the store gives decides.
  have unanswered : s.tree.find? path = none ∨
      ∃ node, s.tree.find? path = some node ∧ ¬ node.revMin ≤ copy.revision := by
    cases lookup : s.tree.find? path with
    | none => exact .inl rfl
    | some node => exact .inr ⟨node, rfl, not_le.2 (absent node lookup)⟩
  constructor
  · intro row isRow rowHolds
    subst isRow
    rcases unanswered with none | ⟨node, found, later⟩
    · simp [resolveSource, run_bind, normalized, inRange, none, lookedUp, rowHolds]
    · simp [resolveSource, run_bind, normalized, inRange, found, later, lookedUp, rowHolds]
  · intro noneHolds
    cases found with
    | none =>
      rcases unanswered with none | ⟨node, found, later⟩
      · simp [resolveSource, run_bind, normalized, inRange, none, lookedUp]
      · simp [resolveSource, run_bind, normalized, inRange, found, later, lookedUp]
    | some row =>
      have rowFails := noneHolds row rfl
      rcases unanswered with none | ⟨node, found, later⟩
      · simp [resolveSource, run_bind, normalized, inRange, none, lookedUp, rowFails]
      · simp [resolveSource, run_bind, normalized, inRange, found, later, lookedUp, rowFails]

/-! ## The live tree's nodes that the store already has -/

namespace Delta

variable {base : LiveTree} {node : LiveNode}

/-- A live node that did not open in the revision is a node of the tree the revision started from. -/
theorem recordOf?_base (delta : Delta base R s) (nodeMem : node ∈ s.tree.nodes)
    (early : node.revMin ≠ R) : base.recordOf? node.id = some node.toRecord := by
  have present := delta.wellFormed.recordOf?_of_mem nodeMem
  -- Nodes created in the revision open at `R`, so this one was kept.
  have notCreated : node.id ∉ s.schedule.createdSet := by
    intro created
    have opens := delta.opened node.id created
    rw [present] at opens
    exact early (Option.some.inj opens)
  have kept := delta.kept node.id notCreated
  rw [present] at kept
  split at kept
  · exact absurd kept (Option.some_ne_none _)
  · exact kept.symm

/-- On top of committed tables, a live node present at an earlier revision has a row holding
it. -/
theorem row_of_present {t₀ : Tables} {history : History} (delta : Delta (current history) R s)
    (records : t₀.Records history) (valid : history.Valid) {path : String} {c : Revnum}
    (found : s.tree.find? path = some node) (notRoot : path ≠ Path.root)
    (present : node.revMin ≤ c) (before : c < R) (headBound : R ≤ Revnum.head) :
    node.toRecord ∈ t₀.nodes ∧ node.toRecord.path = path ∧ node.toRecord.covers c := by
  obtain ⟨nodeMem, atPath⟩ := delta.wellFormed.find?_eq_some_iff.1 found
  have early : node.revMin ≠ R := by
    unfold Revnum at *
    omega
  have based := delta.recordOf?_base nodeMem early
  have current : node.toRecord ∈ (current history).records := (valid.current_wellFormed.mem_records_iff).2
    ⟨delta.wellFormed.id_ne_root_of_path nodeMem (atPath ▸ notRoot), based⟩
  refine ⟨(records.mem_current valid).1 current |>.1, atPath, ?_⟩
  have within : c ≤ Revnum.head := by
    unfold Revnum at *
    omega
  simp [NodeRecord.covers, LiveNode.toRecord, present, within]

end Delta

/-- The root path is answered by the root. -/
theorem run_resolveSource_root (wf : s.tree.WellFormed)
    (normalized : Path.normalize copy.path = .ok Path.root) (positive : 1 ≤ copy.revision)
    (before : copy.revision < R) :
    s.run (resolveSource store R copy) = (s, .ok { id := NodeId.root, kind := .dir }) := by
  obtain ⟨children, rootMem⟩ := wf.rootMem
  have found := wf.find?_eq_some_iff.2 ⟨rootMem, rfl⟩
  have present : ({ LiveNode.root with children := children } : LiveNode).revMin ≤ copy.revision := by
    show (0 : Revnum) ≤ copy.revision
    unfold Revnum at *
    omega
  exact run_resolveSource_fast normalized positive before found present

/-- The source of a copy is the node the store has at the source path as of the source revision:
the root for the root path, otherwise the node `nodeAt` gives, or `predecessorUnresolved`. -/
theorem copy_source_is_node_at {engine : Engine} {lawful : engine.Lawful} {t t₀ : Tables}
    {txOpen : Bool} {history : History} (holds : store.Holds lawful t txOpen)
    (sameNodes : t.nodes = t₀.nodes) (records : t₀.Records history) (valid : history.Valid)
    (delta : Delta (current history) R s) (headBound : R ≤ Revnum.head)
    (normalized : Path.normalize copy.path = .ok path) (positive : 1 ≤ copy.revision)
    (before : copy.revision < R) :
    (path = Path.root →
      s.run (resolveSource store R copy) = (s, .ok { id := NodeId.root, kind := .dir })) ∧
    (path ≠ Path.root → ∃ found, store.nodeAt path copy.revision = .ok found ∧
      (∀ row, found = some row →
        s.run (resolveSource store R copy) = (s, .ok { id := row.id, kind := row.kind })) ∧
      (found = none → s.run (resolveSource store R copy) =
        (s, .error (.fatal (.predecessorUnresolved path copy.revision)))) ∧
      ∀ node, s.tree.find? path = some node → node.revMin ≤ copy.revision →
        found = some node.toRecord ∧ store.lookupPath path copy.revision = .ok found) := by
  refine ⟨fun isRoot => run_resolveSource_root delta.wellFormed (isRoot ▸ normalized) positive before,
    fun notRoot => ?_⟩
  have within : copy.revision ≤ Revnum.head := by
    unfold Revnum at *
    omega
  -- Whether a row of the path holds the source revision decides the answer of both paths.
  by_cases covered : ∃ row ∈ t₀.nodes, row.path = path ∧ row.covers copy.revision
  case pos =>
    obtain ⟨row, rowMem, atPath, rowHolds⟩ := covered
    obtain ⟨lookedUp, atNode⟩ :=
      Tables.Records.lookupPath_of_covers holds sameNodes records valid within rowMem atPath rowHolds
    -- A live node present at the source revision has a row of the path holding it: this one.
    have fastAgrees : ∀ node, s.tree.find? path = some node → node.revMin ≤ copy.revision →
        node.toRecord = row := by
      intro node found present
      obtain ⟨nodeRow, nodeAtPath, nodeHolds⟩ :=
        delta.row_of_present records valid found notRoot present before headBound
      exact records.eq_of_path valid nodeRow rowMem (nodeAtPath.trans atPath.symm) within
        nodeHolds rowHolds
    refine ⟨some row, atNode, ?_, fun isNone => absurd isNone (Option.some_ne_none row),
      fun node found present => ⟨congrArg some (fastAgrees node found present).symm, lookedUp⟩⟩
    intro answer isRow
    cases Option.some.inj isRow
    by_cases fast : ∃ node, s.tree.find? path = some node ∧ node.revMin ≤ copy.revision
    case pos =>
      obtain ⟨node, found, present⟩ := fast
      rw [run_resolveSource_fast normalized positive before found present, ← fastAgrees node found present]
      rfl
    case neg =>
      have absent : ∀ node, s.tree.find? path = some node → copy.revision < node.revMin :=
        fun node found => lt_of_not_ge fun present => fast ⟨node, found, present⟩
      exact (run_resolveSource_slow normalized positive before absent lookedUp).1 row rfl rowHolds
  case neg =>
    have uncovered : ∀ row ∈ t.nodes, row.path = path → row.covers copy.revision = false := by
      intro row rowMem atPath
      rw [sameNodes] at rowMem
      exact Bool.eq_false_iff.2 fun rowHolds => covered ⟨row, rowMem, atPath, rowHolds⟩
    obtain ⟨atNode, found, lookedUp, noneHolds⟩ := Tables.lookupPath_of_uncovered holds uncovered
    -- No live node can answer: its row would hold the source revision.
    have absent : ∀ node, s.tree.find? path = some node → copy.revision < node.revMin := by
      intro node nodeFound
      refine lt_of_not_ge fun present => covered ⟨node.toRecord, ?_⟩
      exact delta.row_of_present records valid nodeFound notRoot present before headBound
    refine ⟨none, atNode, fun row isRow => absurd isRow.symm (Option.some_ne_none row), fun _ => ?_,
      fun node nodeFound present => absurd (absent node nodeFound) (not_lt.2 present)⟩
    exact (run_resolveSource_slow normalized positive before absent lookedUp).2 noneHolds

/-- A copy from a path the store never held, on top of nothing committed, is unresolved. -/
theorem copy_from_unknown_path_unresolved :
    ({} : Ingestor).run (resolveSource (Reference.store {}) 2 { path := "/a", revision := 1 }) =
      ({}, .error (.fatal (.predecessorUnresolved "/a" 1))) := by
  have started : Delta ({} : Ingestor).tree 2 ({} : Ingestor) :=
    Delta.start LiveTree.WellFormed.empty rfl rfl rfl
  have normalized : Path.normalize ({ path := "/a", revision := 1 } : CopySource).path = .ok "/a" := by
    decide
  obtain ⟨-, unrooted⟩ := copy_source_is_node_at (Reference.holds {}) rfl Tables.records_empty
    valid_nil started (by decide) normalized (by decide) (by decide)
  obtain ⟨found, atNode, -, unresolved, -⟩ := unrooted (by decide)
  have nothingStored : ∀ row ∈ ({} : Tables).nodes, row.path = "/a" → row.covers 1 = false :=
    fun row rowMem => absurd rowMem List.not_mem_nil
  obtain ⟨noNode, -⟩ := Tables.lookupPath_of_uncovered (Reference.holds {}) nothingStored
  rw [noNode] at atNode
  exact unresolved (Except.ok.inj atNode).symm

/-! ## A source the store has -/

/-- The store's node at a source path other than the root is the source, whichever path
`resolveSource` takes. -/
theorem run_resolveSource_of_nodeAt {engine : Engine} {lawful : engine.Lawful} {t t₀ : Tables}
    {txOpen : Bool} {history : History} (holds : store.Holds lawful t txOpen)
    (sameNodes : t.nodes = t₀.nodes) (records : t₀.Records history) (valid : history.Valid)
    (delta : Delta (current history) R s)
    (headBound : R ≤ Revnum.head) (normalized : Path.normalize copy.path = .ok path)
    (notRoot : path ≠ Path.root) (positive : 1 ≤ copy.revision) (before : copy.revision < R)
    {row : NodeRecord} (atNode : store.nodeAt path copy.revision = .ok (some row)) :
    s.run (resolveSource store R copy) = (s, .ok { id := row.id, kind := row.kind }) := by
  have within : copy.revision ≤ Revnum.head := by
    unfold Revnum at *
    omega
  -- The node the store has at the path is a row of the path that holds the source revision.
  have stored : row ∈ t₀.nodes ∧ row.path = path ∧ row.covers copy.revision := by
    unfold Store.nodeAt at atNode
    rcases holds.firstNode (fun rows (answers : t.Answers (.nodeAt path copy.revision) rows) =>
        answers) with ⟨-, read⟩ | ⟨best, bestMem, read, -⟩
    · rw [read] at atNode
      exact absurd (Except.ok.inj atNode) (Option.some_ne_none row).symm
    · rw [read, Except.ok.injEq, Option.some.injEq] at atNode
      subst atNode
      obtain ⟨bestRow, bestChecks⟩ := List.mem_filter.1 bestMem
      simp only [Bool.and_eq_true, beq_iff_eq] at bestChecks
      exact ⟨sameNodes ▸ bestRow, bestChecks⟩
  obtain ⟨rowMem, atPath, rowHolds⟩ := stored
  obtain ⟨lookedUp, -⟩ :=
    Tables.Records.lookupPath_of_covers holds sameNodes records valid within rowMem atPath rowHolds
  by_cases fast : ∃ node, s.tree.find? path = some node ∧ node.revMin ≤ copy.revision
  case pos =>
    -- The live node present at the source revision has the row of the path that holds it.
    obtain ⟨node, found, present⟩ := fast
    obtain ⟨nodeRow, nodeAtPath, nodeHolds⟩ :=
      delta.row_of_present records valid found notRoot present before headBound
    have sameRow := records.eq_of_path valid nodeRow rowMem (nodeAtPath.trans atPath.symm) within
      nodeHolds rowHolds
    rw [run_resolveSource_fast normalized positive before found present, ← sameRow]
    rfl
  case neg =>
    have absent : ∀ node, s.tree.find? path = some node → copy.revision < node.revMin :=
      fun node found => lt_of_not_ge fun present => fast ⟨node, found, present⟩
    exact (run_resolveSource_slow normalized positive before absent lookedUp).1 row rfl rowHolds

end Ingestor
end TreeHistory
