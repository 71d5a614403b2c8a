import Mathlib
import TreeHistory.Proofs.Indexer.Budget
import TreeHistory.Proofs.Indexer.Batching
import TreeHistory.Proofs.Indexer.PointInTime
import TreeHistory.Proofs.Ingest.Failures

/-!
# The revision table and the indexer's bookkeeping

The indexer remembers the last revision stored when it was opened (`resumeAfter`) and the last one
committed (`lastRevision`). A run of the indexer is told here with the change sets it committed
before and since it was last opened (`Journal`). Along every run the last revision is the largest
of the revision table, which holds the committed change sets in commit order with increasing
revisions; whether a revision is skipped or refused out of order is decided by the journal alone
(`revision_table_tracks_commits`).
-/

namespace TreeHistory

namespace Indexer

open History

variable {engine : Engine} {lawful : engine.Lawful}

/-- The change sets that indexing `changeSet` committed: the change set itself when it committed,
none otherwise. -/
def committedSets (result : Except IndexError Outcome) (changeSet : ChangeSet) : List ChangeSet :=
  match result with
  | .ok (.committed _) => [changeSet]
  | _ => []

@[simp] theorem committedSets_committed (summary : RevisionSummary) (changeSet : ChangeSet) :
    committedSets (.ok (.committed summary)) changeSet = [changeSet] := rfl

@[simp] theorem committedSets_skipped (changeSet : ChangeSet) :
    committedSets (.ok .skipped) changeSet = [] := rfl

@[simp] theorem committedSets_error (e : IndexError) (changeSet : ChangeSet) :
    committedSets (.error e) changeSet = [] := rfl

theorem committedSets_sublist (result : Except IndexError Outcome) (changeSet : ChangeSet) :
    (committedSets result changeSet).Sublist [changeSet] := by
  unfold committedSets
  split
  · exact List.Sublist.refl _
  · exact List.nil_sublist _

/-- The states a run of the indexer reaches from an empty store, with the change sets it committed
before the indexer was last opened and those since, each in order. -/
inductive Journal (lawful : engine.Lawful) : Indexer → List ChangeSet → List ChangeSet → Prop where
  | opened {store : Store} {capacity retries : Nat} {indexer : Indexer}
      (empty : store.Holds lawful {} false) (opened : ofStore store capacity = .ok indexer) :
      Journal lawful { indexer with maxRetries := retries } [] []
  | reopened {indexer indexer' : Indexer} {before since : List ChangeSet} {capacity retries : Nat}
      (journal : Journal lawful indexer before since)
      (opened : ofStore indexer.store capacity = .ok indexer') :
      Journal lawful { indexer' with maxRetries := retries } (before ++ since) []
  | indexed {indexer indexer' : Indexer} {before since : List ChangeSet} {changeSet : ChangeSet}
      {result : Except IndexError Outcome}
      (journal : Journal lawful indexer before since) (bounded : changeSet.revision ≤ Revnum.head)
      (step : indexer.indexRevision changeSet = (indexer', result)) :
      Journal lawful indexer' before (since ++ committedSets result changeSet)
  | recovered {indexer indexer' : Indexer} {before since : List ChangeSet}
      (journal : Journal lawful indexer before since) (recovered : indexer.recover = .ok indexer') :
      Journal lawful indexer' before since

/-! ## What one operation does to the bookkeeping -/

theorem store_of_ofStore {store : Store} {capacity : Nat} {indexer : Indexer}
    (opened : ofStore store capacity = .ok indexer) : indexer.store = store := by
  unfold ofStore at opened
  obtain ⟨resumeAfter, -, recovered⟩ := Except.bind_eq_ok.1 opened
  exact store_of_recover recovered

theorem resumeAfter_of_recover {indexer recovered : Indexer}
    (rebuilt : indexer.recover = .ok recovered) : recovered.resumeAfter = indexer.resumeAfter := by
  unfold recover at rebuilt
  simp only [Except.bind_eq_ok, pure, Except.pure, Except.ok.injEq] at rebuilt
  obtain ⟨-, -, -, -, -, -, -, -, rfl⟩ := rebuilt
  rfl

/-- Making an indexer ready to write, by rebuilding a diverged live tree, keeps its store and the
revision it resumes after. -/
theorem ready_store {indexer ready : Indexer}
    (readied : (if indexer.diverged then indexer.recover else .ok indexer) = .ok ready) :
    ready.store = indexer.store ∧ ready.resumeAfter = indexer.resumeAfter := by
  split at readied
  · exact ⟨store_of_recover readied, resumeAfter_of_recover readied⟩
  · rw [Except.ok.injEq] at readied
    rw [← readied]
    exact ⟨rfl, rfl⟩

/-- A revision that commits reports its own number. -/
theorem revision_of_committed {indexer indexer' : Indexer} {changeSet : ChangeSet}
    {summary : RevisionSummary}
    (step : indexer.indexRevision changeSet = (indexer', .ok (.committed summary))) :
    summary.revision = changeSet.revision := by
  rcases indexRevision_cases step with ⟨-, refused | ⟨e, -, -, refused⟩⟩ |
      ⟨ready, -, ⟨-, refused | ⟨last, refused⟩⟩ | ⟨-, -, -, committing⟩⟩
  all_goals try simp at refused
  rcases commitRevision_cases committing with ⟨ingestor, store, summary', written, -, same⟩ |
    ⟨ingestor, e, -, -, refused⟩
  · obtain ⟨-, -, -, plan, -, counts, -, -, -, -, -, -, summaryEq⟩ := writeRevision_eq_ok written
    simp only [Except.ok.injEq, Outcome.committed.injEq] at same
    rw [same, summaryEq]
  · simp at refused

/-- Indexing keeps the revision an indexer resumes after. -/
theorem resumeAfter_of_indexRevision {indexer indexer' : Indexer} {changeSet : ChangeSet}
    {result : Except IndexError Outcome}
    (step : indexer.indexRevision changeSet = (indexer', result)) :
    indexer'.resumeAfter = indexer.resumeAfter := by
  rcases indexRevision_cases step with ⟨rfl, -⟩ | ⟨ready, readied, rest⟩
  · rfl
  have kept := (ready_store readied).2
  rcases rest with ⟨rfl, -⟩ | ⟨-, -, -, committing⟩
  · exact kept
  rcases commitRevision_cases committing with ⟨-, -, -, -, rfl, -⟩ | ⟨-, -, -, rfl, -⟩ <;>
    exact kept

/-- The commits a history records after indexing a revision: one more, of the revision's number,
when it committed. -/
theorem revisions_record {indexer indexer' : Indexer} {changeSet : ChangeSet}
    {result : Except IndexError Outcome}
    (step : indexer.indexRevision changeSet = (indexer', result)) (history : History)
    (tree : LiveTree) :
    revisions (history.record result tree) =
      revisions history ++ (committedSets result changeSet).map (·.revision) := by
  rcases result with e | _ | summary
  · simp
  · simp
  · simp [revision_of_committed step]

/-- Indexing a revision adds the revision row of the change set it commits, and no other. -/
theorem revisions_of_indexRevision {indexer indexer' : Indexer} {t : Tables}
    {changeSet : ChangeSet} {result : Except IndexError Outcome}
    (holds : indexer.store.Holds lawful t false) (bounded : changeSet.revision ≤ Revnum.head)
    (step : indexer.indexRevision changeSet = (indexer', result)) :
    ∃ t', indexer'.store.Holds lawful t' false ∧
      t'.revisions = t.revisions ++ (committedSets result changeSet).map (·.info) := by
  rcases indexRevision_cases step with ⟨rfl, rfl | ⟨e, -, -, rfl⟩⟩ | ⟨ready, readied, rest⟩
  · exact ⟨t, holds, by simp⟩
  · exact ⟨t, holds, by simp⟩
  have readyHolds : ready.store.Holds lawful t false := by
    rw [(ready_store readied).1]
    exact holds
  rcases rest with ⟨rfl, rfl | ⟨last, rfl⟩⟩ | ⟨-, -, -, committing⟩
  · exact ⟨t, readyHolds, by simp⟩
  · exact ⟨t, readyHolds, by simp⟩
  rcases commitRevision_cases committing with ⟨ingestor, store, summary, written, rfl, rfl⟩ |
    ⟨ingestor, e, -, rfl, rfl⟩
  · -- The commit writes the revision row inside the transaction.
    obtain ⟨-, -, plan, t', -, -, -, stored, committed⟩ := writeRevision_tables readyHolds bounded written
    exact ⟨t', stored, by rw [committed.revisions]; simp⟩
  · exact ⟨t, readyHolds, by simp⟩

/-! ## Over a run -/

section
variable {indexer : Indexer} {before since : List ChangeSet}

/-- A journaled state is reachable, with a history that commits the journal's revisions. -/
theorem Journal.reachable (journal : Journal lawful indexer before since) :
    ∃ history spent, Reachable lawful indexer history spent ∧
      revisions history = (before ++ since).map (·.revision) := by
  induction journal with
  | opened empty opened => exact ⟨[], 0, .opened empty opened, rfl⟩
  | reopened _ opened reached =>
    obtain ⟨history, spent, reach, revisionsEq⟩ := reached
    exact ⟨history, spent, .reopened reach opened, by rw [revisionsEq, List.append_nil]⟩
  | indexed _ bounded step reached =>
    obtain ⟨history, spent, reach, revisionsEq⟩ := reached
    refine ⟨_, _, .indexed reach bounded step, ?_⟩
    rw [revisions_record step, revisionsEq, List.map_append, List.map_append, List.map_append,
      List.append_assoc]
  | recovered _ recovered reached =>
    obtain ⟨history, spent, reach, revisionsEq⟩ := reached
    exact ⟨history, spent, .recovered reach recovered, revisionsEq⟩

theorem Journal.consistent (journal : Journal lawful indexer before since) :
    ∃ history, Consistent lawful indexer history ∧
      revisions history = (before ++ since).map (·.revision) := by
  obtain ⟨history, spent, reach, revisionsEq⟩ := journal.reachable
  exact ⟨history, reach.consistent, revisionsEq⟩

/-- The revision table holds the metadata of the committed change sets, in commit order. -/
theorem Journal.revisionRows (journal : Journal lawful indexer before since) :
    ∃ t, indexer.store.Holds lawful t false ∧ t.revisions = (before ++ since).map (·.info) := by
  induction journal with
  | opened empty opened => exact ⟨{}, (store_of_ofStore opened).symm ▸ empty, rfl⟩
  | reopened _ opened rows =>
    obtain ⟨t, holds, rowsEq⟩ := rows
    exact ⟨t, (store_of_ofStore opened).symm ▸ holds, by rw [rowsEq, List.append_nil]⟩
  | indexed _ bounded step rows =>
    obtain ⟨t, holds, rowsEq⟩ := rows
    obtain ⟨t', holds', rowsEq'⟩ := revisions_of_indexRevision holds bounded step
    refine ⟨t', holds', ?_⟩
    rw [rowsEq', rowsEq, List.map_append, List.map_append, List.map_append, List.append_assoc]
  | recovered _ recovered rows =>
    obtain ⟨t, holds, rowsEq⟩ := rows
    exact ⟨t, (store_of_recover recovered).symm ▸ holds, rowsEq⟩

/-- The revision resumed after is the last committed before the indexer was last opened. -/
theorem Journal.resumeAfter (journal : Journal lawful indexer before since) :
    indexer.resumeAfter = (before.map (·.revision)).max? := by
  induction journal with
  | opened empty opened =>
    rw [ofStore_empty empty, Except.ok.injEq] at opened
    rw [← opened]
    rfl
  | @reopened indexer indexer' before since capacity retries journal opened _ =>
    -- Opening again reads the last revision of the store, which the run committed.
    obtain ⟨history, consistent, revisionsEq⟩ := journal.consistent
    obtain ⟨t, holds, records⟩ := consistent.stored
    obtain ⟨tree, -, -, reopenedEq⟩ := ofStore_eq_ok holds records consistent.valid capacity
    rw [reopenedEq, Except.ok.injEq] at opened
    rw [← opened]
    show (revisions history).max? = _
    rw [revisionsEq]
  | indexed _ _ step resumed => rw [resumeAfter_of_indexRevision step, resumed]
  | recovered _ recovered resumed => rw [resumeAfter_of_recover recovered, resumed]

end

/-- Indexing one change set with retries commits it at most once, and ends in a journaled state. -/
theorem Journal.runOne {changeSet : ChangeSet} (bounded : changeSet.revision ≤ Revnum.head) :
    ∀ (attempts : Nat) {indexer indexer' : Indexer} {before since : List ChangeSet}
      {summary : RunSummary} {result : Except IndexError RunSummary},
      Journal lawful indexer before since →
      Indexer.runOne changeSet attempts indexer summary = (indexer', result) →
      ∃ more, more.Sublist [changeSet] ∧ Journal lawful indexer' before (since ++ more) := by
  intro attempts
  induction attempts with
  | zero =>
    intro indexer indexer' before since summary result journal ran
    unfold Indexer.runOne at ran
    cases step : indexer.indexRevision changeSet with
    | mk indexed outcome =>
      rw [step] at ran
      -- With no attempt left, the run ends where the revision left it.
      have ended : indexed = indexer' := by
        rcases outcome with e | _ | summary <;> simp only [Prod.mk.injEq] at ran <;> exact ran.1
      subst ended
      exact ⟨_, committedSets_sublist outcome changeSet, .indexed journal bounded step⟩
  | succ attempts retry =>
    intro indexer indexer' before since summary result journal ran
    unfold Indexer.runOne at ran
    cases step : indexer.indexRevision changeSet with
    | mk indexed outcome =>
      have journaled := Journal.indexed journal bounded step
      rw [step] at ran
      rcases outcome with e | _ | summary
      · simp only at ran
        rw [committedSets_error, List.append_nil] at journaled
        split at ran
        · -- A failed attempt commits nothing; the retry rebuilds the live tree first.
          cases recovered : indexed.recover with
          | ok ready =>
            rw [recovered] at ran
            exact retry (journaled.recovered recovered) ran
          | error e' =>
            rw [recovered] at ran
            simp only [Prod.mk.injEq] at ran
            obtain ⟨rfl, -⟩ := ran
            exact ⟨[], List.nil_sublist _, by rwa [List.append_nil]⟩
        · simp only [Prod.mk.injEq] at ran
          obtain ⟨rfl, -⟩ := ran
          exact ⟨[], List.nil_sublist _, by rwa [List.append_nil]⟩
      · simp only [Prod.mk.injEq] at ran
        obtain ⟨rfl, -⟩ := ran
        exact ⟨_, committedSets_sublist _ changeSet, journaled⟩
      · simp only [Prod.mk.injEq] at ran
        obtain ⟨rfl, -⟩ := ran
        exact ⟨_, committedSets_sublist _ changeSet, journaled⟩

/-- A left fold of steps that each commit at most their own change set commits a sublist of
them. -/
theorem Journal.foldl {α : Type} (step : Indexer × α → ChangeSet → Indexer × α)
    (stepJournal : ∀ start changeSet before since, changeSet.revision ≤ Revnum.head →
      Journal lawful start.1 before since →
      ∃ more, more.Sublist [changeSet] ∧
        Journal lawful (step start changeSet).1 before (since ++ more)) :
    ∀ (changeSets : List ChangeSet) (start : Indexer × α) (before since : List ChangeSet),
      (∀ changeSet ∈ changeSets, changeSet.revision ≤ Revnum.head) →
      Journal lawful start.1 before since →
      ∃ more, more.Sublist changeSets ∧
        Journal lawful (changeSets.foldl step start).1 before (since ++ more) := by
  intro changeSets
  induction changeSets with
  | nil =>
    intro start before since _ journal
    exact ⟨[], List.Sublist.refl _, by rwa [List.append_nil]⟩
  | cons changeSet rest restJournal =>
    intro start before since bounded journal
    obtain ⟨first, firstSub, journal₁⟩ :=
      stepJournal start changeSet before since (bounded changeSet List.mem_cons_self) journal
    obtain ⟨more, moreSub, journal₂⟩ := restJournal (step start changeSet) before (since ++ first)
      (fun later mem => bounded later (List.mem_cons_of_mem _ mem)) journal₁
    refine ⟨first ++ more, firstSub.append moreSub, ?_⟩
    rw [← List.append_assoc]
    exact journal₂

/-- A run of the feed loop over change sets of signed 64-bit revisions commits a sublist of them,
and ends in a journaled state. -/
theorem Journal.run {indexer indexer' : Indexer} {before since : List ChangeSet}
    {changeSets : List ChangeSet} {stop : Option FeedError} {result : Except IndexError RunSummary}
    (journal : Journal lawful indexer before since)
    (bounded : ∀ changeSet ∈ changeSets, changeSet.revision ≤ Revnum.head)
    (ran : Indexer.run indexer changeSets stop = (indexer', result)) :
    ∃ more, more.Sublist changeSets ∧ Journal lawful indexer' before (since ++ more) := by
  unfold Indexer.run at ran
  dsimp only at ran
  generalize finishedEq : List.foldl _ _ changeSets = finished at ran
  -- The run ends where its loop left it, whether or not the feed stopped on an error.
  have ended : indexer' = finished.1 := by
    obtain ⟨indexer₁, result₁⟩ := finished
    simp only at ran
    split at ran <;> simp only [Prod.mk.injEq] at ran <;> exact ran.1.symm
  subst ended
  rw [← finishedEq]
  refine Journal.foldl _ ?_ changeSets _ before since bounded journal
  intro start changeSet before since bounded journal
  obtain ⟨indexer, result⟩ := start
  cases result with
  | ok summary =>
    dsimp only
    cases stepped : Indexer.runOne changeSet indexer.maxRetries indexer summary with
    | mk indexer₁ result₁ => exact Journal.runOne bounded _ journal stepped
  | error e => exact ⟨[], List.nil_sublist _, by rwa [List.append_nil]⟩

/-- While revisions increase, appending to a list keeps its largest element exactly when nothing
is appended. -/
theorem max?_append_eq_iff {xs ys : List Revnum} {largest : Revnum}
    (increasing : (xs ++ ys).Pairwise (· < ·)) (largestXs : xs.max? = some largest) :
    (xs ++ ys).max? = some largest ↔ ys = [] := by
  constructor
  · intro same
    cases ys with
    | nil => rfl
    | cons y rest =>
      have later : largest < y :=
        List.pairwise_append.1 increasing |>.2.2 _ (List.max?_mem largestXs) y List.mem_cons_self
      have atMost : y ≤ largest :=
        (List.max?_eq_some_iff.1 same).2 y (List.mem_append_right _ List.mem_cons_self)
      exact absurd later (not_lt.2 atMost)
  · rintro rfl
    rwa [List.append_nil]

/-- A journaled indexer resumes a revision exactly when it is at most the last revision committed
before the last opening and nothing has been committed since. -/
theorem Journal.isResumed_iff {indexer : Indexer} {before since : List ChangeSet}
    (journal : Journal lawful indexer before since) (r : Revnum) :
    indexer.isResumed r = true ↔
      (∃ L, (before.map (·.revision)).max? = some L ∧ r ≤ L) ∧ since = [] := by
  obtain ⟨history, consistent, revisionsEq⟩ := journal.consistent
  have increasing := consistent.valid.increasing
  have last := consistent.lastRevision
  rw [revisionsEq, List.map_append] at increasing last
  unfold isResumed
  rw [journal.resumeAfter]
  cases largest : (before.map (·.revision)).max? with
  | none => simp
  | some L =>
    simp [last, max?_append_eq_iff increasing largest]

/-! ## Deciding a revision -/

/-- No step of applying a change set refuses a revision out of order, whatever the store. -/
theorem admits_inOrder (store : Store) :
    Ingestor.Admits (fun e => ∀ last got, e ≠ .fatal (.outOfOrder last got)) store where
  violations v inOrder last got same := by
    rw [IndexError.fatal.injEq] at same
    subst same
    simp [Violation.isOutOfOrder] at inOrder
  lookupPath _ _ _ _ _ _ := by simp
  children _ _ _ _ _ _ := by simp

/-- Writing a revision fails on the store or on a violation of its change set, never refusing it
out of order. -/
theorem writeRevision_error_ne_outOfOrder {indexer : Indexer} {changeSet : ChangeSet}
    {e : IndexError} (failed : (indexer.writeRevision changeSet).2 = .error e) (last got : Revnum) :
    e ≠ .fatal (.outOfOrder last got) := by
  unfold writeRevision at failed
  split at failed
  · simp only [Except.error.injEq] at failed
    simp [← failed]
  split at failed
  · simp only [Except.error.injEq] at failed
    simp [← failed]
  split at failed
  · -- Applying the change set failed.
    rename_i applying
    simp only [Except.error.injEq] at failed
    exact failed ▸ Ingestor.failsWith_apply (admits_inOrder _) changeSet _ _ _ applying last got
  split at failed
  · -- Taking the plan failed.
    rename_i planning
    simp only [Except.error.injEq] at failed
    exact failed ▸ Ingestor.failsWith_takePlan (admits_inOrder Store.fresh).violations _ _ _
      planning last got
  split at failed
  · simp only [Except.error.injEq] at failed
    simp [← failed]
  split at failed
  · simp only [Except.error.injEq] at failed
    simp [← failed]
  · simp at failed

/-- Writing a revision neither skips it nor refuses it out of order. -/
theorem commitRevision_decides {indexer : Indexer} {changeSet : ChangeSet} :
    (indexRevision.commitRevision indexer changeSet).2 ≠ .ok .skipped ∧
      ∀ last got, (indexRevision.commitRevision indexer changeSet).2 ≠
        .error (.fatal (.outOfOrder last got)) := by
  obtain ⟨⟨indexer', result⟩, step⟩ : ∃ step, indexRevision.commitRevision indexer changeSet = step :=
    ⟨_, rfl⟩
  rw [step]
  rcases commitRevision_cases step with ⟨-, -, -, -, -, rfl⟩ | ⟨ingestor, e, written, -, rfl⟩
  · simp
  · refine ⟨by simp, fun last got same => ?_⟩
    rw [Except.error.injEq] at same
    exact writeRevision_error_ne_outOfOrder (by rw [written]) last got same

/-- A revision number out of range is refused before anything changes. -/
theorem indexRevision_of_outOfRange (indexer : Indexer) {changeSet : ChangeSet}
    (outOfRange : changeSet.revision < 1 ∨ changeSet.revision = Revnum.head) :
    indexer.indexRevision changeSet =
      (indexer, .error (.fatal (.invalidRevision changeSet.revision))) := by
  simp only [indexRevision, if_pos outOfRange]

/-- From a consistent indexer, a revision in range is skipped exactly when resumed, and refused
out of order exactly when not resumed and at most the last revision. -/
theorem Consistent.indexRevision_decides {indexer : Indexer} {history : History}
    (consistent : Consistent lawful indexer history) {changeSet : ChangeSet}
    (positive : 1 ≤ changeSet.revision) (belowHead : changeSet.revision < Revnum.head) :
    ((indexer.indexRevision changeSet).2 = .ok .skipped ↔
        indexer.isResumed changeSet.revision = true) ∧
      ∀ last, (indexer.indexRevision changeSet).2 =
          .error (.fatal (.outOfOrder last changeSet.revision)) ↔
        indexer.isResumed changeSet.revision = false ∧ indexer.lastRevision = some last ∧
          changeSet.revision ≤ last := by
  -- A diverged indexer rebuilds its live tree first, keeping both revisions it remembers.
  obtain ⟨ready, readied, sameLast, sameResume⟩ : ∃ ready,
      (if indexer.diverged then indexer.recover else .ok indexer) = .ok ready ∧
        ready.lastRevision = indexer.lastRevision ∧ ready.resumeAfter = indexer.resumeAfter := by
    split
    · obtain ⟨t, holds, records⟩ := consistent.stored
      obtain ⟨tree, -, -, rebuilt⟩ := recover_eq_ok indexer holds records consistent.valid
      exact ⟨_, rebuilt, consistent.lastRevision.symm, rfl⟩
    · exact ⟨indexer, rfl, rfl, rfl⟩
  have resumed : indexer.isResumed changeSet.revision = ready.isResumed changeSet.revision := by
    simp only [isResumed, sameLast, sameResume]
  have inRange : ¬ (changeSet.revision < 1 ∨ changeSet.revision = Revnum.head) := by
    unfold Revnum at *
    omega
  rw [resumed, ← sameLast]
  obtain ⟨notSkipped, notOutOfOrder⟩ := @commitRevision_decides ready changeSet
  unfold Indexer.indexRevision
  dsimp only
  rw [if_neg inRange, readied]
  dsimp only
  by_cases skip : ready.isResumed changeSet.revision = true
  · simp [skip]
  rw [if_neg skip, Bool.not_eq_true] at *
  cases last : ready.lastRevision with
  | none => simp [notSkipped, notOutOfOrder, skip]
  | some l =>
    by_cases atMost : changeSet.revision ≤ l
    · simp [atMost, skip, eq_comm]
    · have later : l < changeSet.revision := lt_of_not_ge atMost
      simp [atMost, later, skip, notSkipped, notOutOfOrder]

/-- Along every run of the indexer from an empty store: the last revision is the largest id of the
revision table; the table holds the metadata of the committed change sets in commit order; their
revisions increase; and the revision resumed after is the last committed before the last opening.
A revision out of range is refused before anything changes. A revision in range is skipped
exactly when it is at most the last revision committed before the last opening and nothing has
been committed since; otherwise it is refused out of order exactly when it is at most the last
revision. -/
theorem revision_table_tracks_commits {indexer : Indexer} {before since : List ChangeSet}
    (journal : Journal lawful indexer before since) :
    (∃ t, indexer.store.Holds lawful t false ∧
      indexer.lastRevision = (t.revisions.map (·.id)).max? ∧
      t.revisions = (before ++ since).map (·.info)) ∧
    ((before ++ since).map (·.revision)).Pairwise (· < ·) ∧
    indexer.resumeAfter = (before.map (·.revision)).max? ∧
    ∀ changeSet : ChangeSet,
      ((changeSet.revision < 1 ∨ changeSet.revision = Revnum.head) →
        indexer.indexRevision changeSet =
          (indexer, .error (.fatal (.invalidRevision changeSet.revision)))) ∧
      (1 ≤ changeSet.revision → changeSet.revision < Revnum.head →
        ((indexer.indexRevision changeSet).2 = .ok .skipped ↔
          (∃ L, (before.map (·.revision)).max? = some L ∧ changeSet.revision ≤ L) ∧ since = []) ∧
        ∀ last, (indexer.indexRevision changeSet).2 =
            .error (.fatal (.outOfOrder last changeSet.revision)) ↔
          (indexer.indexRevision changeSet).2 ≠ .ok .skipped ∧ indexer.lastRevision = some last ∧
            changeSet.revision ≤ last) := by
  obtain ⟨history, consistent, revisionsEq⟩ := journal.consistent
  obtain ⟨t, holds, rows⟩ := journal.revisionRows
  have ids : t.revisions.map (·.id) = (before ++ since).map (·.revision) := by
    rw [rows, List.map_map]
    rfl
  refine ⟨⟨t, holds, by rw [consistent.lastRevision, revisionsEq, ids], rows⟩,
    revisionsEq ▸ consistent.valid.increasing, journal.resumeAfter,
    fun changeSet => ⟨indexRevision_of_outOfRange indexer, fun positive belowHead => ?_⟩⟩
  obtain ⟨skipped, outOfOrder⟩ := consistent.indexRevision_decides positive belowHead
  refine ⟨skipped.trans (journal.isResumed_iff _), fun last => (outOfOrder last).trans ?_⟩
  rw [ne_eq, skipped, Bool.not_eq_true]

/-- After revision 1 commits on the empty store, sending it again is refused out of order. -/
theorem first_commit_resent_out_of_order :
    Journal Reference.lawful (openedEmpty.indexRevision addsDirA).1 [] [addsDirA] ∧
      ((openedEmpty.indexRevision addsDirA).1.indexRevision addsDirA).2 =
        .error (.fatal (.outOfOrder 1 1)) := by
  have committed : (openedEmpty.indexRevision addsDirA).2 = .ok (.committed {
      revision := 1, events := 1, nodesCreated := 1, nodesOutdated := 0, contentsModified := 0,
      discarded := 0,
      rows := { nodeInserts := 1, nodeOutdates := 0, contentInserts := 0, contentOutdates := 0 } }) := by
    decide +kernel
  have journal : Journal Reference.lawful (openedEmpty.indexRevision addsDirA).1 [] [addsDirA] := by
    have step : Journal Reference.lawful (openedEmpty.indexRevision addsDirA).1 []
        ([] ++ committedSets (openedEmpty.indexRevision addsDirA).2 addsDirA) :=
      Journal.indexed (Journal.opened (Reference.holds {})
      (ofStore_empty (Reference.holds {}) 1000))
      (show addsDirA.revision ≤ Revnum.head by decide) rfl
    rwa [committed, committedSets_committed, List.nil_append] at step
  obtain ⟨⟨t, -, lastEq, rowsEq⟩, -, -, decides⟩ := revision_table_tracks_commits journal
  obtain ⟨skipped, outOfOrder⟩ := (decides addsDirA).2 (by decide) (by decide)
  refine ⟨journal, (outOfOrder 1).2 ⟨?_, ?_, le_refl _⟩⟩
  · rw [ne_eq, skipped]
    simp
  · rw [lastEq, rowsEq]
    rfl

end Indexer
end TreeHistory
