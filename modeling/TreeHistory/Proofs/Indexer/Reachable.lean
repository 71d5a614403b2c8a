import TreeHistory.Proofs.Indexer.History

/-!
# The states a run reaches

An indexer is opened on an empty store, then indexes change sets, rebuilds its live tree and is
opened again on its store, in any order (`Reachable`). Every state it reaches is `Consistent` with
the history it committed: its store records the history, its last revision is the history's, and
unless a failed revision left it diverged, its live tree holds the history's current tree. A
reachable state also bounds the node ids its run may have handed out.
-/

namespace TreeHistory

namespace History

/-- The history after indexing a revision ended in `result` and left the live tree `tree`: one
commit more when it committed. -/
def record (history : History) (result : Except IndexError Outcome) (tree : LiveTree) : History :=
  match result with
  | .ok (.committed summary) => history ++ [⟨summary.revision, tree⟩]
  | _ => history

@[simp] theorem record_committed (history : History) (summary : RevisionSummary) (tree : LiveTree) :
    history.record (.ok (.committed summary)) tree = history ++ [⟨summary.revision, tree⟩] := rfl

@[simp] theorem record_skipped (history : History) (tree : LiveTree) :
    history.record (.ok .skipped) tree = history := rfl

@[simp] theorem record_error (history : History) (e : IndexError) (tree : LiveTree) :
    history.record (.error e) tree = history := rfl

/-- A revision after the largest committed one comes after every committed one. -/
theorem lt_of_max?_lt {history : History} {r : Revnum}
    (later : ∀ last, (revisions history).max? = some last → last < r) :
    ∀ commit ∈ history, commit.revision < r := by
  intro commit mem
  cases largest : (revisions history).max? with
  | none =>
    rw [List.max?_eq_none_iff] at largest
    exact absurd (mem_revisions.2 ⟨commit, mem, rfl⟩) (largest ▸ List.not_mem_nil)
  | some last =>
    have below := (List.max?_eq_some_iff.1 largest).2 _ (mem_revisions.2 ⟨commit, mem, rfl⟩)
    exact Int.lt_of_le_of_lt below (later last largest)

/-- After committing a revision later than every other, it is the largest. -/
theorem max?_revisions_append {history : History} {commit : Commit}
    (later : ∀ earlier ∈ history, earlier.revision < commit.revision) :
    (revisions (history ++ [commit])).max? = some commit.revision := by
  rw [revisions_append, List.max?_eq_some_iff]
  refine ⟨List.mem_append_right _ (List.mem_singleton_self _), fun r mem => ?_⟩
  rcases List.mem_append.1 mem with mem | mem
  · obtain ⟨earlier, earlierMem, rfl⟩ := mem_revisions.1 mem
    exact Int.le_of_lt (later earlier earlierMem)
  · rw [List.mem_singleton.1 mem]

end History

open History

namespace Indexer

variable {engine : Engine} {lawful : engine.Lawful}

/-- An indexer that agrees with the history it committed: its store records the history, its
last revision is the history's, and its live tree, unless diverged, is the current tree. -/
structure Consistent (lawful : engine.Lawful) (indexer : Indexer) (history : History) : Prop where
  valid : history.Valid
  stored : ∃ t, indexer.store.Holds lawful t false ∧ t.Records history
  lastRevision : indexer.lastRevision = (revisions history).max?
  cached : indexer.diverged = false →
    indexer.ingestor.tree.WellFormed ∧ indexer.ingestor.tree.Same (current history)

/-! ## Rebuilding the live tree -/

/-- Rebuilding from tables that record a history succeeds with the history's current tree. -/
theorem recover_eq_ok (indexer : Indexer) {t : Tables} {history : History}
    (holds : indexer.store.Holds lawful t false) (records : t.Records history)
    (valid : history.Valid) :
    ∃ tree, tree.WellFormed ∧ tree.Same (current history) ∧
      indexer.recover = .ok { indexer with
        ingestor := { tree := tree,
                      lastId := max ((t.nodes.map (·.id)).max?.getD 0) indexer.ingestor.lastId },
        lastRevision := (revisions history).max?, diverged := false } := by
  obtain ⟨live, liveRead, livePerm, sorted⟩ := holds.liveNodes
  -- The live rows, in order of path, are the records of the current tree.
  obtain ⟨tree, built, wf, same⟩ :=
    valid.current_wellFormed.ofRecords_same (livePerm.trans (records.live_perm valid)) sorted
  refine ⟨tree, wf, same, ?_⟩
  unfold recover
  simp only [liveRead, built, holds.maxNodeId, holds.lastRevision, records.revisions,
    Except.mapError_ok, bind, Except.bind, pure, Except.pure]

/-- Opening a store whose tables record a history succeeds, resuming after its last revision. -/
theorem ofStore_eq_ok {store : Store} {t : Tables} {history : History}
    (holds : store.Holds lawful t false) (records : t.Records history) (valid : history.Valid)
    (capacity : Nat) :
    ∃ tree, tree.WellFormed ∧ tree.Same (current history) ∧
      ofStore store capacity = .ok {
        store := store, capacity := capacity,
        ingestor := { tree := tree, lastId := max ((t.nodes.map (·.id)).max?.getD 0) NodeId.root },
        resumeAfter := (revisions history).max?, lastRevision := (revisions history).max?,
        diverged := false } := by
  unfold ofStore
  simp only [holds.lastRevision, records.revisions, Except.mapError_ok, bind,
    Except.bind]
  exact recover_eq_ok {
      store := store, capacity := capacity, ingestor := {},
      resumeAfter := (revisions history).max?, lastRevision := (revisions history).max? }
    holds records valid

/-- Opening an empty store gives an indexer with the empty live tree and no revision. -/
theorem ofStore_empty {store : Store} (holds : store.Holds lawful {} false) (capacity : Nat) :
    ofStore store capacity = .ok {
      store := store, capacity := capacity, ingestor := {},
      resumeAfter := none, lastRevision := none } := by
  obtain ⟨live, liveRead, livePerm, -⟩ := holds.liveNodes
  have noLive : live = [] := List.Perm.eq_nil livePerm
  unfold ofStore recover
  simp only [holds.lastRevision, liveRead, noLive, holds.maxNodeId, Except.mapError_ok,
    bind, Except.bind, pure, Except.pure]
  rfl

variable {indexer indexer' : Indexer} {history : History}

theorem Consistent.of_recover (consistent : Consistent lawful indexer history)
    (recovered : indexer.recover = .ok indexer') :
    Consistent lawful indexer' history ∧ indexer'.diverged = false ∧
      indexer'.store = indexer.store ∧ indexer'.lastRevision = indexer.lastRevision := by
  obtain ⟨t, holds, records⟩ := consistent.stored
  obtain ⟨tree, wf, same, rebuilt⟩ := recover_eq_ok indexer holds records consistent.valid
  rw [rebuilt, Except.ok.injEq] at recovered
  subst recovered
  exact ⟨⟨consistent.valid, ⟨t, holds, records⟩, rfl, fun _ => ⟨wf, same⟩⟩, rfl, rfl,
    consistent.lastRevision.symm⟩

/-- Opening a store that records a history gives an indexer consistent with it, whatever its
number of retries. -/
theorem consistent_of_ofStore {store : Store} {t : Tables} {capacity retries : Nat}
    (holds : store.Holds lawful t false) (records : t.Records history) (valid : history.Valid)
    (opened : ofStore store capacity = .ok indexer) :
    Consistent lawful { indexer with maxRetries := retries } history := by
  obtain ⟨tree, wf, same, openedEq⟩ := ofStore_eq_ok holds records valid capacity
  rw [openedEq, Except.ok.injEq] at opened
  subst opened
  exact ⟨valid, ⟨t, holds, records⟩, rfl, fun _ => ⟨wf, same⟩⟩

/-! ## Indexing one revision -/

/-- Everything writing a revision can do: commit it, with the store after the commit, the
ingestor that planned it and its last revision; or fail, keeping the store and diverging. -/
theorem commitRevision_cases {changeSet : ChangeSet} {result : Except IndexError Outcome}
    (step : indexRevision.commitRevision indexer changeSet = (indexer', result)) :
    (∃ ingestor store summary,
      indexer.writeRevision changeSet = (ingestor, .ok (store, summary)) ∧
      indexer' = { indexer with store := store, ingestor := ingestor,
                                lastRevision := some changeSet.revision } ∧
      result = .ok (.committed summary)) ∨
    (∃ ingestor e, indexer.writeRevision changeSet = (ingestor, .error e) ∧
      indexer' = { indexer with ingestor := ingestor, diverged := true } ∧ result = .error e) := by
  unfold indexRevision.commitRevision at step
  cases written : indexer.writeRevision changeSet with
  | mk ingestor outcome =>
    rw [written] at step
    cases outcome with
    | ok committed =>
      obtain ⟨store, summary⟩ := committed
      simp only [Prod.mk.injEq] at step
      exact .inl ⟨ingestor, store, summary, rfl, step.1.symm, step.2.symm⟩
    | error e =>
      simp only [Prod.mk.injEq] at step
      exact .inr ⟨ingestor, e, rfl, step.1.symm, step.2.symm⟩

/-- Everything indexing a revision can do: refuse it, fail to rebuild, skip it, or write it. -/
theorem indexRevision_cases {changeSet : ChangeSet} {result : Except IndexError Outcome}
    (step : indexer.indexRevision changeSet = (indexer', result)) :
    (indexer' = indexer ∧
      (result = .error (.fatal (.invalidRevision changeSet.revision)) ∨
        ∃ e, indexer.diverged = true ∧ indexer.recover = .error e ∧ result = .error e)) ∨
    ∃ ready, (if indexer.diverged then indexer.recover else .ok indexer) = .ok ready ∧
      ((indexer' = ready ∧ (result = .ok .skipped ∨
          ∃ last, result = .error (.fatal (.outOfOrder last changeSet.revision)))) ∨
        (1 ≤ changeSet.revision ∧ changeSet.revision ≠ Revnum.head ∧
          (∀ last, ready.lastRevision = some last → last < changeSet.revision) ∧
          indexRevision.commitRevision ready changeSet = (indexer', result))) := by
  unfold indexRevision at step
  dsimp only at step
  split at step
  · simp only [Prod.mk.injEq] at step
    exact .inl ⟨step.1.symm, .inl step.2.symm⟩
  rename_i inRange
  cases readied : (if indexer.diverged then indexer.recover else .ok indexer) with
  | error e =>
    rw [readied] at step
    simp only [Prod.mk.injEq] at step
    -- Only rebuilding a diverged live tree can fail here.
    split at readied
    · exact .inl ⟨step.1.symm, .inr ⟨e, ‹_›, readied, step.2.symm⟩⟩
    · exact nomatch readied
  | ok ready =>
    rw [readied] at step
    simp only at step
    refine .inr ⟨ready, rfl, ?_⟩
    have positive : 1 ≤ changeSet.revision := by
      have := not_or.1 inRange
      unfold Revnum at this ⊢
      omega
    have notHead : changeSet.revision ≠ Revnum.head := (not_or.1 inRange).2
    split at step
    · simp only [Prod.mk.injEq] at step
      exact .inl ⟨step.1.symm, .inl step.2.symm⟩
    cases last : ready.lastRevision with
    | none =>
      rw [last] at step
      exact .inr ⟨positive, notHead, (fun _ noLast => nomatch noLast), step⟩
    | some last =>
      rw [last] at step
      simp only at step
      split at step
      · simp only [Prod.mk.injEq] at step
        exact .inl ⟨step.1.symm, .inr ⟨_, step.2.symm⟩⟩
      · rename_i after
        refine .inr ⟨positive, notHead, fun found foundEq => ?_, step⟩
        rw [Option.some.injEq] at foundEq
        subst foundEq
        exact Int.not_le.1 after

/-- Writing a revision from a consistent, ready indexer, after its last revision: a commit extends
the history by the live tree the ingestor is left with, and a failure changes nothing stored. -/
theorem Consistent.commitRevision (consistent : Consistent lawful indexer history)
    {changeSet : ChangeSet} {result : Except IndexError Outcome}
    (ready : indexer.diverged = false) (bounded : changeSet.revision ≤ Revnum.head)
    (later : ∀ last, indexer.lastRevision = some last → last < changeSet.revision)
    (step : indexRevision.commitRevision indexer changeSet = (indexer', result)) :
    Consistent lawful indexer' (history.record result indexer'.ingestor.tree) := by
  obtain ⟨wf, same⟩ := consistent.cached ready
  obtain ⟨t, holds, records⟩ := consistent.stored
  rcases commitRevision_cases step with
    ⟨ingestor, store, summary, written, rfl, rfl⟩ | ⟨ingestor, e, -, rfl, rfl⟩
  · obtain ⟨tx, inserted, applied₀, plan₀, after, counts, -, -, -, -, -, -, summaryEq⟩ :=
      writeRevision_eq_ok written
    obtain ⟨opened, applied, plan, t', -, applying, planning, stored, committed⟩ :=
      writeRevision_tables holds bounded written
    have delta := Ingestor.apply_delta wf applying
    obtain ⟨rfl, planned⟩ := Ingestor.run_takePlan planning
    have afterAll : ∀ commit ∈ history, commit.revision < changeSet.revision :=
      lt_of_max?_lt fun last largest => later last (consistent.lastRevision.trans largest)
    rw [record_committed, summaryEq]
    dsimp only
    refine ⟨consistent.valid.append afterAll
        ⟨committed.range.1, Int.lt_iff_le_and_ne.2 ⟨bounded, committed.range.2⟩⟩ delta.wellFormed,
      ⟨t', stored, records.commit consistent.valid committed bounded afterAll delta.wellFormed
        fun record => ?_⟩,
      (@max?_revisions_append history ⟨changeSet.revision, applied.tree⟩ afterAll).symm,
      fun _ => ⟨delta.wellFormed, by rw [current_append]; exact LiveTree.Same.refl _⟩⟩
    -- The plan turns the live tree's records into the new tree's; the live tree's are the
    -- current tree's.
    rw [delta.records_of_plan wf planned record,
      wf.mem_records_of_same consistent.valid.current_wellFormed same]
  · exact ⟨consistent.valid, consistent.stored, consistent.lastRevision, fun diverged => nomatch diverged⟩

/-- Indexing a revision of a signed 64-bit number keeps an indexer consistent with its history,
grown by the live tree it is left with when the revision commits. -/
theorem Consistent.indexRevision (consistent : Consistent lawful indexer history)
    {changeSet : ChangeSet} {result : Except IndexError Outcome}
    (bounded : changeSet.revision ≤ Revnum.head)
    (step : indexer.indexRevision changeSet = (indexer', result)) :
    Consistent lawful indexer' (history.record result indexer'.ingestor.tree) := by
  rcases indexRevision_cases step with ⟨rfl, rfl | ⟨e, -, -, rfl⟩⟩ | ⟨ready, readied, rest⟩
  · exact consistent
  · exact consistent
  -- The indexer the revision starts from is consistent and not diverged.
  have readyConsistent : Consistent lawful ready history ∧ ready.diverged = false := by
    split at readied
    · obtain ⟨readyConsistent, fresh, -, -⟩ := consistent.of_recover readied
      exact ⟨readyConsistent, fresh⟩
    · rename_i notDiverged
      rw [Except.ok.injEq] at readied
      subst readied
      exact ⟨consistent, by simpa using notDiverged⟩
  rcases rest with ⟨rfl, rfl | ⟨last, rfl⟩⟩ | ⟨-, -, later, committing⟩
  · exact readyConsistent.1
  · exact readyConsistent.1
  · exact readyConsistent.1.commitRevision readyConsistent.2 bounded later committing

/-! ## Reachable states -/

/-- The states an indexer reaches from an empty store, with the history it committed and a bound
on the node ids handed out: one per change and one per row a copy reads, per revision tried. -/
inductive Reachable (lawful : engine.Lawful) : Indexer → History → Nat → Prop where
  | opened {store : Store} {capacity retries : Nat} {indexer : Indexer}
      (empty : store.Holds lawful {} false) (opened : ofStore store capacity = .ok indexer) :
      Reachable lawful { indexer with maxRetries := retries } [] 0
  | reopened {indexer indexer' : Indexer} {history : History} {spent capacity retries : Nat}
      (reach : Reachable lawful indexer history spent)
      (opened : ofStore indexer.store capacity = .ok indexer') :
      Reachable lawful { indexer' with maxRetries := retries } history spent
  | indexed {indexer indexer' : Indexer} {history : History} {spent : Nat} {changeSet : ChangeSet}
      {result : Except IndexError Outcome}
      (reach : Reachable lawful indexer history spent) (bounded : changeSet.revision ≤ Revnum.head)
      (step : indexer.indexRevision changeSet = (indexer', result)) :
      Reachable lawful indexer' (history.record result indexer'.ingestor.tree)
        (spent + changeSet.changes.length * (indexer.store.nodeCount + 1))
  | recovered {indexer indexer' : Indexer} {history : History} {spent : Nat}
      (reach : Reachable lawful indexer history spent) (recovered : indexer.recover = .ok indexer') :
      Reachable lawful indexer' history spent

/-- Every reachable state is consistent with the history its run committed. -/
theorem Reachable.consistent {spent : Nat} (reach : Reachable lawful indexer history spent) :
    Consistent lawful indexer history := by
  induction reach with
  | opened empty opened => exact consistent_of_ofStore empty Tables.records_empty valid_nil opened
  | reopened _ opened consistent =>
    obtain ⟨t, holds, records⟩ := consistent.stored
    exact consistent_of_ofStore holds records consistent.valid opened
  | indexed _ bounded step consistent => exact consistent.indexRevision bounded step
  | recovered _ recovered consistent => exact (consistent.of_recover recovered).1

/-- Indexing one change set with retries ends in a reachable state. -/
theorem Reachable.runOne {changeSet : ChangeSet} (bounded : changeSet.revision ≤ Revnum.head) :
    ∀ (attempts : Nat) {indexer indexer' : Indexer} {history : History} {spent : Nat}
      {summary : RunSummary} {result : Except IndexError RunSummary},
      Reachable lawful indexer history spent →
      Indexer.runOne changeSet attempts indexer summary = (indexer', result) →
      ∃ history' spent', Reachable lawful indexer' history' spent' := by
  intro attempts
  induction attempts with
  | zero =>
    intro indexer indexer' history spent summary result reach ran
    unfold Indexer.runOne at ran
    cases step : indexer.indexRevision changeSet with
    | mk indexed outcome =>
      rw [step] at ran
      -- With no attempt left, the run ends where the revision left it.
      have ended : indexed = indexer' := by
        rcases outcome with e | _ | summary <;> simp only [Prod.mk.injEq] at ran <;> exact ran.1
      subst ended
      exact ⟨_, _, Reachable.indexed reach bounded step⟩
  | succ attempts retry =>
    intro indexer indexer' history spent summary result reach ran
    unfold Indexer.runOne at ran
    cases step : indexer.indexRevision changeSet with
    | mk indexed outcome =>
      have reached := Reachable.indexed reach bounded step
      rw [step] at ran
      rcases outcome with e | _ | summary
      · simp only at ran
        split at ran
        · -- A retry rebuilds the live tree first.
          cases recovered : indexed.recover with
          | ok ready =>
            rw [recovered] at ran
            exact retry (Reachable.recovered reached recovered) ran
          | error e' =>
            rw [recovered] at ran
            simp only [Prod.mk.injEq] at ran
            obtain ⟨rfl, -⟩ := ran
            exact ⟨_, _, reached⟩
        · simp only [Prod.mk.injEq] at ran
          obtain ⟨rfl, -⟩ := ran
          exact ⟨_, _, reached⟩
      · simp only [Prod.mk.injEq] at ran
        obtain ⟨rfl, -⟩ := ran
        exact ⟨_, _, reached⟩
      · simp only [Prod.mk.injEq] at ran
        obtain ⟨rfl, -⟩ := ran
        exact ⟨_, _, reached⟩

/-- A left fold of steps that each end in a reachable state ends in one. -/
theorem Reachable.foldl {α : Type} (step : Indexer × α → ChangeSet → Indexer × α)
    (stepReachable : ∀ start changeSet history spent, changeSet.revision ≤ Revnum.head →
      Reachable lawful start.1 history spent →
      ∃ history' spent', Reachable lawful (step start changeSet).1 history' spent') :
    ∀ (changeSets : List ChangeSet) (start : Indexer × α) (history : History) (spent : Nat),
      (∀ changeSet ∈ changeSets, changeSet.revision ≤ Revnum.head) →
      Reachable lawful start.1 history spent →
      ∃ history' spent', Reachable lawful (changeSets.foldl step start).1 history' spent' := by
  intro changeSets
  induction changeSets with
  | nil => exact fun start history spent _ reach => ⟨history, spent, reach⟩
  | cons changeSet rest restReachable =>
    intro start history spent bounded reach
    obtain ⟨history₁, spent₁, reach₁⟩ :=
      stepReachable start changeSet history spent (bounded changeSet List.mem_cons_self) reach
    exact restReachable (step start changeSet) history₁ spent₁
      (fun later mem => bounded later (List.mem_cons_of_mem _ mem)) reach₁

/-- A run of the feed loop over change sets of signed 64-bit revisions ends in a reachable
state. -/
theorem Reachable.run {spent : Nat} {changeSets : List ChangeSet} {stop : Option FeedError}
    {result : Except IndexError RunSummary} (reach : Reachable lawful indexer history spent)
    (bounded : ∀ changeSet ∈ changeSets, changeSet.revision ≤ Revnum.head)
    (ran : Indexer.run indexer changeSets stop = (indexer', result)) :
    ∃ history' spent', Reachable lawful indexer' history' spent' := by
  unfold Indexer.run at ran
  dsimp only at ran
  generalize finishedEq : List.foldl _ _ changeSets = finished at ran
  -- The run ends where its loop left it, whether or not the feed stopped on an error.
  have ended : indexer' = finished.1 := by
    obtain ⟨indexer₁, result₁⟩ := finished
    simp only at ran
    split at ran <;> simp only [Prod.mk.injEq] at ran <;> exact ran.1.symm
  subst ended
  rw [← finishedEq]
  refine Reachable.foldl _ ?_ changeSets _ history spent bounded reach
  intro start changeSet history spent bounded reach
  obtain ⟨indexer, result⟩ := start
  cases result with
  | ok summary =>
    dsimp only
    cases stepped : Indexer.runOne changeSet indexer.maxRetries indexer summary with
    | mk indexer₁ result₁ => exact Reachable.runOne bounded _ reach stepped
  | error e => exact ⟨history, spent, reach⟩

end Indexer
end TreeHistory
