import Mathlib
import TreeHistory.Proofs.Store.Batching
import TreeHistory.Proofs.Indexer.PointInTime

/-!
# Batch sizes and indexing a revision

Whether a revision transaction commits, its summary and the tables it leaves do not depend on the
batch size (`Indexer.indexRevision_withCapacity`). Which failure is reported when it fails can:
with small batches the first failing statement stops the transaction, with larger ones a failing
statement of another writer may run first.
-/

namespace TreeHistory

open Tables Statement

namespace Plan

/-- The calls a plan makes of the writers, in the order `writePlan` makes them. -/
def calls (plan : Plan) : List Transaction.Call :=
  plan.outdated.map (fun entry => .outdateNode entry.1 entry.2.isFile) ++
    plan.created.flatMap (fun node => .insertNode node.record ::
      (node.content.map fun body => .insertContent node.record.id body.data).toList) ++
    plan.modified.map (fun entry => .replaceContent entry.1 entry.2.data)

end Plan

namespace Indexer

open Transaction

theorem proceed_eq_ok_iff {step : Transaction × Except StoreError Unit} {tx : Transaction} :
    proceed step = .ok tx ↔ step = (tx, .ok ()) := by
  constructor
  · exact proceed_eq_ok
  · rintro rfl
    rfl

/-- Steps that each make calls of the writers, folded over a list, make all of them in order. -/
theorem foldlM_eq_ok_iff {α : Type} {step : Transaction → α → Except StoreError Transaction}
    (calls : α → List Call)
    (stepCalls : ∀ tx x tx', step tx x = .ok tx' ↔ tx.callAll (calls x) = (tx', .ok ())) :
    ∀ (xs : List α) (tx tx' : Transaction),
      xs.foldlM step tx = .ok tx' ↔ tx.callAll (xs.flatMap calls) = (tx', .ok ())
  | [], tx, tx' => by
    simp [callAll, pure, Except.pure]
  | x :: rest, tx, tx' => by
    rw [List.foldlM_cons, Except.bind_eq_ok, List.flatMap_cons, callAll_append_eq_ok]
    simp only [stepCalls, foldlM_eq_ok_iff calls stepCalls rest]

theorem outdateStep_eq_ok_iff (tx : Transaction) (entry : NodeId × NodeKind) (tx' : Transaction) :
    proceed (tx.outdateNode entry.1 entry.2.isFile) = .ok tx' ↔
      tx.callAll [.outdateNode entry.1 entry.2.isFile] = (tx', .ok ()) := by
  rw [proceed_eq_ok_iff, callAll_singleton_eq_ok]
  rfl

/-- One created node: its record, then its content if it is a file. -/
theorem createStep_eq_ok_iff (tx : Transaction) (node : CreatedNode) (tx' : Transaction) :
    (do
      let tx ← proceed (tx.insertNode node.record)
      match node.content with
      | some body => proceed (tx.insertContent node.record.id body.data)
      | none => pure tx) = Except.ok tx' ↔
      tx.callAll (.insertNode node.record ::
        (node.content.map fun body => .insertContent node.record.id body.data).toList) =
        (tx', .ok ()) := by
  rw [Except.bind_eq_ok, callAll_cons_eq_ok]
  cases content : node.content with
  | none => simp [proceed_eq_ok_iff, pure, Except.pure, callAll, Transaction.call]
  | some body => simp [proceed_eq_ok_iff, callAll_singleton_eq_ok, Transaction.call]

theorem modifyStep_eq_ok_iff (tx : Transaction) (entry : NodeId × ContentBody) (tx' : Transaction) :
    proceed (tx.replaceContent entry.1 entry.2.data) = .ok tx' ↔
      tx.callAll [.replaceContent entry.1 entry.2.data] = (tx', .ok ()) := by
  rw [proceed_eq_ok_iff, callAll_singleton_eq_ok]
  rfl

/-- Writing a plan and closing the writers goes through exactly when the plan's calls and the
closing do. -/
theorem writePlan_eq_ok_iff {tx tx' : Transaction} {plan : Plan} {counts : WriteCounts} :
    writePlan tx plan = .ok (tx', counts) ↔
      ∃ tx₁, tx.callAll plan.calls = (tx₁, .ok ()) ∧ tx₁.close = (tx', .ok counts) := by
  have outdated := foldlM_eq_ok_iff _ outdateStep_eq_ok_iff plan.outdated
  have created := foldlM_eq_ok_iff _ createStep_eq_ok_iff plan.created
  have modified := foldlM_eq_ok_iff _ modifyStep_eq_ok_iff plan.modified
  rw [← List.map_eq_flatMap] at outdated modified
  simp only [writePlan, Except.bind_eq_ok]
  constructor
  · rintro ⟨tx₁, wroteOutdated, tx₂, wroteCreated, tx₃, wroteModified, closing⟩
    obtain ⟨⟨tx₄, result⟩, closed⟩ : ∃ step, tx₃.close = step := ⟨_, rfl⟩
    rw [closed] at closing
    cases result with
    | error e => simp [throw, throwThe, MonadExceptOf.throw] at closing
    | ok written =>
      simp only [pure, Except.pure, Except.ok.injEq, Prod.mk.injEq] at closing
      obtain ⟨rfl, rfl⟩ := closing
      refine ⟨tx₃, ?_, closed⟩
      simp only [Plan.calls, callAll_append_eq_ok]
      exact ⟨tx₂, ⟨tx₁, (outdated _ _).1 wroteOutdated, (created _ _).1 wroteCreated⟩,
        (modified _ _).1 wroteModified⟩
  · rintro ⟨tx₃, called, closed⟩
    simp only [Plan.calls, callAll_append_eq_ok] at called
    obtain ⟨tx₂, ⟨tx₁, calledOutdated, calledCreated⟩, calledModified⟩ := called
    exact ⟨tx₁, (outdated _ _).2 calledOutdated, tx₂, (created _ _).2 calledCreated, tx₃,
      (modified _ _).2 calledModified, by simp [closed, pure, Except.pure]⟩

end Indexer


namespace Indexer

open Transaction

theorem finish_calls_eq_ok_iff {tx : Transaction} {plan : Plan} {store : Store}
    {counts : WriteCounts} :
    tx.finish plan.calls = .ok (store, counts) ↔
      ∃ tx', writePlan tx plan = .ok (tx', counts) ∧ tx'.commit = (store, .ok ()) := by
  simp only [finish_eq_ok_iff, writePlan_eq_ok_iff]
  constructor
  · rintro ⟨tx₁, tx₂, called, closed, committed⟩
    exact ⟨tx₂, ⟨tx₁, called, closed⟩, committed⟩
  · rintro ⟨tx₂, ⟨tx₁, called, closed⟩, committed⟩
    exact ⟨tx₁, tx₂, called, closed, committed⟩

/-- What the ingestor ends with does not depend on the batch size: it sees the store after the
revision row, which runs alone. -/
theorem writeRevision_fst_withCapacity (indexer : Indexer) (changeSet : ChangeSet)
    (capacity₁ capacity₂ : Nat) :
    (({ indexer with capacity := capacity₁ } : Indexer).writeRevision changeSet).1 =
      (({ indexer with capacity := capacity₂ } : Indexer).writeRevision changeSet).1 := by
  unfold writeRevision
  dsimp only
  obtain ⟨opening, began⟩ : ∃ opening,
      Transaction.begin indexer.store changeSet.revision capacity₁ = opening := ⟨_, rfl⟩
  cases opening with
  | error e => rw [began, begin_error_withCapacity began capacity₂]
  | ok tx =>
    obtain ⟨began₂, same⟩ := begin_withCapacity began capacity₂
    rw [began, began₂, ← same]
    simp only [insertRevision_withCapacity]
    obtain ⟨⟨tx₁, result⟩, inserted⟩ : ∃ step, tx.insertRevision changeSet.info = step := ⟨_, rfl⟩
    rw [inserted]
    cases result with
    | error e => rfl
    | ok u =>
      simp only [store_withCapacity]
      obtain ⟨⟨applied, result₂⟩, applying⟩ : ∃ step,
          indexer.ingestor.run (Ingestor.apply tx₁.store changeSet) = step := ⟨_, rfl⟩
      rw [applying]
      cases result₂ with
      | error e => rfl
      | ok u =>
        simp only
        obtain ⟨⟨planned, result₃⟩, planning⟩ : ∃ step, applied.run Ingestor.takePlan = step :=
          ⟨_, rfl⟩
        rw [planning]
        cases result₃ with
        | error e => rfl
        | ok plan =>
          -- However the writes end, the ingestor is the one that made the plan.
          simp only
          split <;> split <;> (try split) <;> (try split) <;> rfl

variable {engine : Engine} {lawful : engine.Lawful}

/-- A revision that commits under one batch size commits under any other, with the same summary,
to a store that holds the same tables. -/
theorem writeRevision_ok_withCapacity {indexer : Indexer} {t : Tables}
    (holds : indexer.store.Holds lawful t false) {changeSet : ChangeSet} {capacity₁ : Nat}
    {ingestor : Ingestor} {store₁ : Store} {summary : RevisionSummary}
    (written : ({ indexer with capacity := capacity₁ } : Indexer).writeRevision changeSet =
      (ingestor, .ok (store₁, summary))) (capacity₂ : Nat) :
    ∃ store₂, ({ indexer with capacity := capacity₂ } : Indexer).writeRevision changeSet =
        (ingestor, .ok (store₂, summary)) ∧
      ∃ t', store₁.Holds lawful t' false ∧ store₂.Holds lawful t' false := by
  obtain ⟨tx, inserted, applied, plan, after, counts, began, inserting, applying, planning, writing,
    committing, rfl⟩ := writeRevision_eq_ok written
  dsimp only at began applying
  obtain ⟨began₂, same⟩ := begin_withCapacity began capacity₂
  -- The revision row goes in alike, and the writers start from the same store.
  have inserting₂ : (tx.withCapacity capacity₂).insertRevision changeSet.info =
      (inserted.withCapacity capacity₂, .ok ()) := by
    rw [insertRevision_withCapacity, inserting]
  have kept : inserted.withCapacity capacity₁ = inserted := by
    have alike := insertRevision_withCapacity tx changeSet.info capacity₁
    rw [same, inserting, Prod.mk.injEq] at alike
    exact alike.1.symm
  obtain ⟨⟨positive, -⟩, beginStore, -, sameRevision, -⟩ := begin_eq_ok began
  have holdsTx : tx.store.Holds lawful t true := by
    have opened := holds.begin.1
    rwa [beginStore] at opened
  obtain ⟨matching, -, -⟩ := insertRevision_ran inserting
  rw [insertRevision_eq tx _ matching, Prod.mk.injEq] at inserting
  obtain ⟨insertedEq, -⟩ := inserting
  obtain ⟨holds₁, -⟩ := holdsTx.exec (.insertRevision changeSet.info)
  rw [show (tx.store.exec (.insertRevision changeSet.info)).1 = inserted.store by rw [← insertedEq]]
    at holds₁
  have positive₁ : 1 ≤ inserted.revision := by
    rw [← insertedEq]
    exact sameRevision ▸ positive
  -- The plan's writes, closing and commit agree across the batch sizes.
  have agree := finish_withCapacity holds₁ positive₁ plan.calls capacity₁ capacity₂
  rw [kept] at agree
  have finished₁ := finish_calls_eq_ok_iff.2 ⟨after, writing, committing⟩
  obtain ⟨⟨store₂, counts₂⟩, finished₂⟩ := agree.1.1 ⟨_, finished₁⟩
  obtain ⟨sameCounts, t', holdsStore₁, holdsStore₂⟩ := agree.2 _ _ _ _ finished₁ finished₂
  subst sameCounts
  obtain ⟨after₂, writing₂, committing₂⟩ := finish_calls_eq_ok_iff.1 finished₂
  refine ⟨store₂, ?_, t', holdsStore₁, holdsStore₂⟩
  simp [writeRevision, began₂, inserting₂, applying, planning, writing₂, committing₂]

/-- Two results of one revision under different batch sizes agree: both fail, or both commit the
same summary to stores that hold the same tables. -/
def CommitsAgree (lawful : engine.Lawful) (first second : Except IndexError (Store × RevisionSummary)) :
    Prop :=
  first.toOption.map Prod.snd = second.toOption.map Prod.snd ∧
    ∀ r₁ r₂, first = .ok r₁ → second = .ok r₂ →
      ∃ t, r₁.1.Holds lawful t false ∧ r₂.1.Holds lawful t false

/-- Writing a revision does the same whatever the batch size, but for which failure it reports. -/
theorem writeRevision_withCapacity {indexer : Indexer} {t : Tables}
    (holds : indexer.store.Holds lawful t false) (changeSet : ChangeSet) (capacity₁ capacity₂ : Nat) :
    (({ indexer with capacity := capacity₁ } : Indexer).writeRevision changeSet).1 =
        (({ indexer with capacity := capacity₂ } : Indexer).writeRevision changeSet).1 ∧
      CommitsAgree lawful (({ indexer with capacity := capacity₁ } : Indexer).writeRevision changeSet).2
        (({ indexer with capacity := capacity₂ } : Indexer).writeRevision changeSet).2 := by
  -- A commit under either batch size is one under the other.
  have transfer : ∀ {capacity capacity' : Nat} {r : Store × RevisionSummary},
      (({ indexer with capacity := capacity } : Indexer).writeRevision changeSet).2 = .ok r →
        ∃ store', (({ indexer with capacity := capacity' } : Indexer).writeRevision changeSet).2 =
            .ok (store', r.2) ∧
          ∃ t', r.1.Holds lawful t' false ∧ store'.Holds lawful t' false := by
    intro capacity capacity' r committed
    have written : ({ indexer with capacity := capacity } : Indexer).writeRevision changeSet =
        ((({ indexer with capacity := capacity } : Indexer).writeRevision changeSet).1,
          .ok (r.1, r.2)) :=
      Prod.ext rfl committed
    obtain ⟨store', written', tables⟩ := writeRevision_ok_withCapacity holds written capacity'
    exact ⟨store', by rw [written'], tables⟩
  refine ⟨writeRevision_fst_withCapacity indexer changeSet capacity₁ capacity₂, ?_, ?_⟩
  · obtain ⟨result₁, written₁⟩ : ∃ result,
        (({ indexer with capacity := capacity₁ } : Indexer).writeRevision changeSet).2 = result :=
      ⟨_, rfl⟩
    obtain ⟨result₂, written₂⟩ : ∃ result,
        (({ indexer with capacity := capacity₂ } : Indexer).writeRevision changeSet).2 = result :=
      ⟨_, rfl⟩
    rw [written₁, written₂]
    cases result₁ with
    | ok r₁ =>
      obtain ⟨store', committed, -⟩ := transfer written₁
      rw [written₂] at committed
      rw [committed]
      rfl
    | error e₁ =>
      cases result₂ with
      | ok r₂ =>
        obtain ⟨store', committed, -⟩ := transfer written₂
        rw [written₁] at committed
        simp at committed
      | error e₂ => rfl
  · intro r₁ r₂ committed₁ committed₂
    obtain ⟨store', committed, tables⟩ := transfer committed₁
    rw [committed₂, Except.ok.injEq] at committed
    rw [committed]
    exact tables

/-- Rebuilding the live tree reads the store alone; the batch size rides along. -/
theorem recover_withCapacity (indexer : Indexer) (capacity : Nat) :
    ({ indexer with capacity := capacity } : Indexer).recover =
      indexer.recover.map fun recovered => { recovered with capacity := capacity } := by
  unfold recover
  simp only [bind, Except.bind]
  cases indexer.store.liveNodes.mapError IndexError.store with
  | error e => rfl
  | ok live =>
    simp only
    cases (LiveTree.ofRecords live).mapError fun e => IndexError.fatal (.tree e) with
    | error e => rfl
    | ok tree =>
      simp only
      cases indexer.store.maxNodeId.mapError IndexError.store with
      | error e => rfl
      | ok maxId =>
        simp only
        cases indexer.store.lastRevision.mapError IndexError.store with
        | error e => rfl
        | ok lastRevision => rfl

theorem store_of_recover {indexer recovered : Indexer} (rebuilt : indexer.recover = .ok recovered) :
    recovered.store = indexer.store := by
  unfold recover at rebuilt
  simp only [Except.bind_eq_ok, pure, Except.pure, Except.ok.injEq] at rebuilt
  obtain ⟨-, -, -, -, -, -, -, -, rfl⟩ := rebuilt
  rfl

/-- Indexers that agree but for their batch sizes and their stores, whose stores hold the same
tables. -/
def AgreeUpToBatching (lawful : engine.Lawful) (first second : Indexer) : Prop :=
  (∃ t, first.store.Holds lawful t false ∧ second.store.Holds lawful t false) ∧
    { first with store := second.store, capacity := second.capacity } = second

theorem agreeUpToBatching_withCapacity {indexer : Indexer} {t : Tables}
    (holds : indexer.store.Holds lawful t false) (capacity₁ capacity₂ : Nat) :
    AgreeUpToBatching lawful { indexer with capacity := capacity₁ }
      { indexer with capacity := capacity₂ } :=
  ⟨⟨t, holds, holds⟩, rfl⟩

/-- Committing a revision, or failing to, leaves indexers that agree whatever the batch size. -/
theorem commitRevision_withCapacity {indexer : Indexer} {t : Tables}
    (holds : indexer.store.Holds lawful t false) (changeSet : ChangeSet) (capacity₁ capacity₂ : Nat) :
    (indexRevision.commitRevision { indexer with capacity := capacity₁ } changeSet).2.toOption =
        (indexRevision.commitRevision { indexer with capacity := capacity₂ } changeSet).2.toOption ∧
      AgreeUpToBatching lawful
        (indexRevision.commitRevision { indexer with capacity := capacity₁ } changeSet).1
        (indexRevision.commitRevision { indexer with capacity := capacity₂ } changeSet).1 := by
  obtain ⟨sameIngestor, sameSummary, sameTables⟩ :=
    writeRevision_withCapacity holds changeSet capacity₁ capacity₂
  unfold indexRevision.commitRevision
  obtain ⟨⟨ingestor₁, result₁⟩, written₁⟩ : ∃ step,
      ({ indexer with capacity := capacity₁ } : Indexer).writeRevision changeSet = step := ⟨_, rfl⟩
  obtain ⟨⟨ingestor₂, result₂⟩, written₂⟩ : ∃ step,
      ({ indexer with capacity := capacity₂ } : Indexer).writeRevision changeSet = step := ⟨_, rfl⟩
  rw [written₁, written₂] at sameIngestor sameSummary sameTables ⊢
  simp only at sameIngestor sameSummary sameTables
  subst sameIngestor
  cases result₁ with
  | ok r₁ =>
    cases result₂ with
    | ok r₂ =>
      obtain ⟨store₁, summary₁⟩ := r₁
      obtain ⟨store₂, summary₂⟩ := r₂
      have same : summary₁ = summary₂ := by simpa [Except.toOption] using sameSummary
      subst same
      exact ⟨rfl, sameTables _ _ rfl rfl, rfl⟩
    | error e₂ => simp [Except.toOption] at sameSummary
  | error e₁ =>
    cases result₂ with
    | ok r₂ => simp [Except.toOption] at sameSummary
    | error e₂ => exact ⟨rfl, ⟨t, holds, holds⟩, rfl⟩

/-- Indexing a revision does the same whatever the batch size, but for which failure it reports. -/
theorem indexRevision_withCapacity {indexer : Indexer} {t : Tables}
    (holds : indexer.store.Holds lawful t false) (changeSet : ChangeSet) (capacity₁ capacity₂ : Nat) :
    (({ indexer with capacity := capacity₁ } : Indexer).indexRevision changeSet).2.toOption =
        (({ indexer with capacity := capacity₂ } : Indexer).indexRevision changeSet).2.toOption ∧
      AgreeUpToBatching lawful
        (({ indexer with capacity := capacity₁ } : Indexer).indexRevision changeSet).1
        (({ indexer with capacity := capacity₂ } : Indexer).indexRevision changeSet).1 := by
  unfold indexRevision
  dsimp only
  by_cases outside : changeSet.revision < 1 ∨ changeSet.revision = Revnum.head
  · rw [if_pos outside, if_pos outside]
    exact ⟨rfl, agreeUpToBatching_withCapacity holds capacity₁ capacity₂⟩
  rw [if_neg outside, if_neg outside]
  -- Whether the live tree is rebuilt first does not depend on the batch size.
  have recovered : ∀ capacity : Nat,
      (if indexer.diverged then ({ indexer with capacity := capacity } : Indexer).recover
        else .ok { indexer with capacity := capacity }) =
        (if indexer.diverged then indexer.recover else .ok indexer).map
          fun recovered => { recovered with capacity := capacity } := by
    intro capacity
    cases diverged : indexer.diverged with
    | true => exact recover_withCapacity indexer capacity
    | false => simp [Except.map, diverged]
  rw [recovered capacity₁, recovered capacity₂]
  obtain ⟨rebuilt, rebuilding⟩ : ∃ rebuilt,
      (if indexer.diverged then indexer.recover else .ok indexer) = rebuilt := ⟨_, rfl⟩
  rw [rebuilding]
  cases rebuilt with
  | error e => exact ⟨rfl, agreeUpToBatching_withCapacity holds capacity₁ capacity₂⟩
  | ok j =>
    have holdsJ : j.store.Holds lawful t false := by
      cases diverged : indexer.diverged with
      | true =>
        rw [diverged, if_pos rfl] at rebuilding
        rwa [store_of_recover rebuilding]
      | false =>
        rw [diverged, if_neg (by decide), Except.ok.injEq] at rebuilding
        rwa [← rebuilding]
    simp only [Except.map]
    have resumed : ∀ capacity, ({ j with capacity := capacity } : Indexer).isResumed
        changeSet.revision = j.isResumed changeSet.revision := fun _ => rfl
    have committing := commitRevision_withCapacity holdsJ changeSet capacity₁ capacity₂
    have agreeing := agreeUpToBatching_withCapacity holdsJ capacity₁ capacity₂
    simp only [resumed]
    -- Past the live tree, the batch size only matters through `commitRevision`.
    generalize ({ j with capacity := capacity₁ } : Indexer) = indexer₁ at committing agreeing ⊢
    generalize ({ j with capacity := capacity₂ } : Indexer) = indexer₂ at committing agreeing ⊢
    by_cases resumedHere : j.isResumed changeSet.revision = true
    · rw [if_pos resumedHere, if_pos resumedHere]
      exact ⟨rfl, agreeing⟩
    rw [if_neg resumedHere, if_neg resumedHere]
    cases j.lastRevision with
    | none => exact committing
    | some last =>
      simp only
      by_cases stale : changeSet.revision ≤ last
      · rw [if_pos stale, if_pos stale]
        exact ⟨rfl, agreeing⟩
      · rw [if_neg stale, if_neg stale]
        exact committing

end Indexer

/-- Insertion into a list stops in front of the first element the new one may precede. -/
theorem orderedInsert_between {α : Type} {r : α → α → Prop} [DecidableRel r] (a : α) :
    ∀ before after : List α, (∀ b ∈ before, ¬ r a b) → (∀ b ∈ after.head?, r a b) →
      (before ++ after).orderedInsert r a = before ++ a :: after
  | [], [], _, _ => rfl
  | [], b :: after, _, first => by simp [first b rfl]
  | b :: before, after, later, first => by
    have rest := orderedInsert_between a before after
      (fun c mem => later c (List.mem_cons_of_mem b mem)) first
    simp [later b List.mem_cons_self, rest]

/-- The stable sort of a revision's changes by path is insertion sort, which the kernel can
evaluate. -/
theorem Ingestor.sortByPath_eq_insertionSort :
    ∀ changes : List (String × Change),
      Ingestor.sortByPath changes = changes.insertionSort fun a b => a.1 ≤ b.1
  | [] => by simp [Ingestor.sortByPath]
  | change :: rest => by
    have trans : ∀ a b c : String × Change, decide (a.1 ≤ b.1) = true →
        decide (b.1 ≤ c.1) = true → decide (a.1 ≤ c.1) = true := by
      intro a b c ab bc
      simp only [decide_eq_true_eq] at ab bc ⊢
      exact le_trans ab bc
    have total : ∀ a b : String × Change, (decide (a.1 ≤ b.1) || decide (b.1 ≤ a.1)) = true := by
      intro a b
      simpa using le_total a.1 b.1
    -- Merge sort puts `change` after exactly the elements that must come before it.
    obtain ⟨before, after, sorted, sortedRest, earlier⟩ :=
      List.mergeSort_cons trans total change rest
    have ordered := List.pairwise_mergeSort trans total (change :: rest)
    rw [sorted, List.pairwise_append, List.pairwise_cons] at ordered
    have first : ∀ b ∈ after.head?, change.1 ≤ b.1 := by
      intro b mem
      simpa using ordered.2.1.1 b (List.mem_of_mem_head? mem)
    have rest' := Ingestor.sortByPath_eq_insertionSort rest
    unfold Ingestor.sortByPath at rest' ⊢
    rw [sorted, List.insertionSort_cons, ← rest', sortedRest,
      orderedInsert_between change before after (fun b mem => by simpa using earlier b mem) first]

namespace Indexer

/-- Tables no indexer wrote, with a directory "/a" opening only at revision 10 and a content row
of node 3 that names no node. -/
def foreignTables : Tables where
  revisions := [{ id := 5, author := none, dateMs := 0, message := "" }]
  nodes := [
    { id := 1, revMin := 10, revMax := Revnum.head, parent := NodeId.root, predecessor := none,
      name := "a", path := "/a", kind := .dir },
    { id := 2, revMin := 1, revMax := 2, parent := NodeId.root, predecessor := none,
      name := "b", path := "/b", kind := .dir }]
  contents := [{ node := 3, revMin := 6, revMax := Revnum.head, data := some "c" }]

/-- Revision 6: delete "/a", add the files "/x" and "/y". -/
def foreignRevision : ChangeSet where
  info := { id := 6, author := none, dateMs := 0, message := "" }
  changes := [
    { path := "/a", action := .deleted, kind := .dir },
    { path := "/x", action := .added, kind := .file, data := some "d" },
    { path := "/y", action := .added, kind := .file, data := some "e" }]

end Indexer

end TreeHistory
