import Mathlib
import TreeHistory.Proofs.Store.Reordering

/-!
# Batch sizes do not change what a revision transaction writes

A revision transaction's writers run their statements in batches of its capacity, so their rows
reach the engine interleaved in an order that depends on the batch size. Writes of different
writers commute (`Store.Reordering`), so only each writer's own order matters, which
`Transaction.Handed` tracks. A transaction then goes through exactly when the writes grouped by
writer run and keep the keys (`Transaction.Goes`), whatever the batch size, and commits the same
tables with the same counts (`Store.commitCalls_withCapacity`).
-/

namespace TreeHistory

open Tables Statement

namespace Buffer

theorem add_eq_none {buffer buffer' : Buffer} {store store' : Store} {statement : Statement}
    (added : buffer.add store statement = (store', buffer', none)) :
    ∃ executed, store.execAll executed = (store', none) ∧
      executed ++ buffer'.pending = buffer.pending ++ [statement] ∧
      buffer'.written = buffer.written + executed.length := by
  simp only [add, flush] at added
  split at added
  · cases ran : store.execAll (buffer.pending ++ [statement]) with
    | mk ranStore failure =>
      rw [ran] at added
      cases failure with
      | none =>
        simp only [Prod.mk.injEq] at added
        obtain ⟨rfl, rfl, -⟩ := added
        exact ⟨buffer.pending ++ [statement], ran, by simp, rfl⟩
      | some e => simp at added
  · simp only [Prod.mk.injEq] at added
    obtain ⟨rfl, rfl, -⟩ := added
    exact ⟨[], rfl, rfl, rfl⟩

/-- Adding a statement goes through when the batch it would complete does. -/
theorem add_of_execAll {buffer : Buffer} {store : Store} {statement : Statement}
    (runs : (store.execAll (buffer.pending ++ [statement])).2 = none) :
    ∃ store' buffer', buffer.add store statement = (store', buffer', none) := by
  simp only [add, flush]
  split
  · cases ran : store.execAll (buffer.pending ++ [statement]) with
    | mk ranStore failure =>
      rw [ran] at runs
      subst runs
      exact ⟨_, _, rfl⟩
  · exact ⟨_, _, rfl⟩

theorem close_eq_ok' {buffer : Buffer} {store store' : Store} {written : Nat}
    (closed : buffer.close store = (store', .ok written)) :
    store.execAll buffer.pending = (store', none) ∧
      written = buffer.written + buffer.pending.length := by
  simp only [close, flush] at closed
  cases ran : store.execAll buffer.pending with
  | mk ranStore failure =>
    rw [ran] at closed
    cases failure with
    | none =>
      simp only [Prod.mk.injEq, Except.ok.injEq] at closed
      rw [closed.1, closed.2]
      exact ⟨rfl, rfl⟩
    | some e => simp at closed

theorem close_of_execAll {buffer : Buffer} {store : Store}
    (runs : (store.execAll buffer.pending).2 = none) :
    ∃ store' written, buffer.close store = (store', .ok written) := by
  simp only [close, flush]
  cases ran : store.execAll buffer.pending with
  | mk ranStore failure =>
    rw [ran] at runs
    subst runs
    exact ⟨_, _, rfl⟩

end Buffer

namespace Transaction

/-- From `start`, `tx` has handed the writes `handed` to its writers: for each writer, the store
has run the first of them in order, and the rest wait. -/
structure Handed (start tx : Transaction) (handed : List Statement) : Prop where
  before : tx.before = start.before
  revision : tx.revision = start.revision
  ran : ∃ done, start.store.execAll done = (tx.store, none) ∧ (∀ s ∈ done, s.writer.isSome) ∧
    ∀ w, through w done ++ (tx.buffer w).pending = through w handed ∧
      (tx.buffer w).written = (start.buffer w).written + (through w done).length

theorem Handed.refl {start : Transaction} (empty : ∀ w, (start.buffer w).pending = []) :
    Handed start start [] :=
  ⟨rfl, rfl, [], rfl, by simp, fun w => by simp [through, empty w]⟩

/-- What waits in a writer's buffer is that writer's. -/
theorem Handed.writer_of_pending {start tx : Transaction} {handed : List Statement}
    (handedTx : Handed start tx handed) {w : Writer} {s : Statement}
    (mem : s ∈ (tx.buffer w).pending) : s.writer = some w := by
  obtain ⟨done, -, -, perWriter⟩ := handedTx.ran
  have listed : s ∈ through w handed := by
    rw [← (perWriter w).1]
    exact List.mem_append_right _ mem
  exact writer_of_mem_through listed

theorem through_singleton {s : Statement} {w w' : Writer} (writer : s.writer = some w') :
    through w [s] = if w = w' then [s] else [] :=
  through_of_writer (by simpa using writer) w

/-- Handing a write to its writer keeps the invariant. -/
theorem Handed.push {start tx tx' : Transaction} {handed : List Statement} {w : Writer}
    {s : Statement} (handedTx : Handed start tx handed) (writer : s.writer = some w)
    (pushed : tx.push w s = (tx', .ok ())) : Handed start tx' (handed ++ [s]) := by
  unfold Transaction.push at pushed
  cases added : (tx.buffer w).add tx.store s with
  | mk store' rest =>
    obtain ⟨b, failure⟩ := rest
    rw [added] at pushed
    cases failure with
    | some e => simp at pushed
    | none =>
      simp only [Prod.mk.injEq] at pushed
      obtain ⟨rfl, -⟩ := pushed
      obtain ⟨batch, ranBatch, split, written⟩ := Buffer.add_eq_none added
      obtain ⟨done, ran, hasWriter, perWriter⟩ := handedTx.ran
      -- The batch that ran is this writer's: what waited in its buffer, then `s`.
      have batchWriter : ∀ x ∈ batch, x.writer = some w := by
        intro x mem
        have waited : x ∈ (tx.buffer w).pending ++ [s] := split ▸ List.mem_append_left _ mem
        rcases List.mem_append.1 waited with waited | waited
        · exact handedTx.writer_of_pending waited
        · rw [List.mem_singleton.1 waited, writer]
      refine ⟨by simp [handedTx.before], by simp [handedTx.revision], done ++ batch,
        by rw [Store.execAll_append ran]; exact ranBatch, ?_, fun w' => ?_⟩
      · intro x mem
        rcases List.mem_append.1 mem with mem | mem
        · exact hasWriter x mem
        · simp [batchWriter x mem]
      obtain ⟨waiting, counted⟩ := perWriter w'
      simp only [buffer_store, buffer_setBuffer, through_append, through_of_writer batchWriter,
        through_singleton writer]
      by_cases same : w' = w
      · subst same
        simp only [if_true]
        refine ⟨?_, ?_⟩
        · rw [List.append_assoc, split, ← List.append_assoc, waiting]
        · rw [written, counted, List.length_append]
          omega
      · simp only [same, if_false, List.append_nil]
        exact ⟨waiting, counted⟩

end Transaction

namespace Store

variable {engine : Engine} {lawful : engine.Lawful} {store : Store} {t : Tables} {txOpen : Bool}

/-- Writes that go through on the tables go through on a store that holds them. -/
theorem Holds.execAll_of_tables (holds : store.Holds lawful t txOpen) {writes : List Statement}
    {t' : Tables} (runs : t.execAll writes = (t', none)) :
    ∃ store', store.execAll writes = (store', none) ∧ store'.Holds lawful t' txOpen := by
  obtain ⟨after, result⟩ := holds.execAll writes
  rw [runs] at after result
  exact ⟨_, Prod.ext rfl result, after⟩

/-- Writes that go through on a store go through on the tables it holds. -/
theorem Holds.execAll_of_store (holds : store.Holds lawful t txOpen) {writes : List Statement}
    {store' : Store} (runs : store.execAll writes = (store', none)) :
    ∃ t', t.execAll writes = (t', none) ∧ store'.Holds lawful t' txOpen := by
  obtain ⟨after, result⟩ := holds.execAll writes
  rw [runs] at after result
  exact ⟨_, Prod.ext rfl result.symm, after⟩

/-- A commit that goes through found the deferred foreign key holding. -/
theorem Holds.keysHold_of_commit (holds : store.Holds lawful t true) {store' : Store}
    (committed : store.commit = (store', .ok ())) : t.keysHold = true := by
  obtain ⟨result, -⟩ := lawful.commit store.conn t holds.tables holds.inTransaction
  unfold Store.commit at committed
  rw [holds.engine] at committed
  generalize engine.commit store.conn = outcome at result committed
  obtain ⟨conn, answer⟩ := outcome
  simp only [Prod.mk.injEq, Except.mapError_eq_ok] at result committed
  rw [committed.2] at result
  by_contra broken
  rw [if_neg broken] at result
  simp at result

end Store

namespace Tables

/-- Every list of writes in which each writer has run a first part of its writes in `writes`, in
order, goes through from `t`. -/
def Fits (t : Tables) (writes : List Statement) : Prop :=
  ∀ done : List Statement, (∀ s ∈ done, s.writer.isSome) →
    (∀ w, through w done <+: through w writes) → ∃ t₁, t.execAll done = (t₁, none)

/-- A revision's writes that go through in the writers' order fit the tables. -/
theorem fits_of_execAll {R : Revnum} (positive : 1 ≤ R) {t t' : Tables} {writes : List Statement}
    (ofRevision : ∀ s ∈ writes, s.OfRevision R) (runs : t.execAll (byWriter writes) = (t', none)) :
    Fits t writes :=
  fun _ hasWriter prefixes => execAll_of_prefix positive ofRevision hasWriter prefixes runs

end Tables

namespace Transaction

variable {engine : Engine} {lawful : engine.Lawful}

/-- What a writer has run is a first part of what it was handed. -/
theorem Handed.done_prefix {start tx : Transaction} {handed done : List Statement}
    (perWriter : ∀ w, through w done ++ (tx.buffer w).pending = through w handed ∧
      (tx.buffer w).written = (start.buffer w).written + (through w done).length) (w : Writer) :
    through w done <+: through w handed :=
  ⟨_, (perWriter w).1⟩

/-- Handing a write to its writer goes through when the writes fit the tables the transaction
started from. -/
theorem Handed.push_ok {start tx : Transaction} {handed final : List Statement} {w : Writer}
    {s : Statement} {t : Tables} (holds : start.store.Holds lawful t true)
    (handedTx : Handed start tx handed) (writer : s.writer = some w) (fits : Fits t final)
    (within : ∀ w', through w' (handed ++ [s]) <+: through w' final) :
    ∃ tx', tx.push w s = (tx', .ok ()) := by
  obtain ⟨done, ran, hasWriter, perWriter⟩ := handedTx.ran
  have batchWriter : ∀ x ∈ (tx.buffer w).pending ++ [s], x.writer = some w := by
    intro x mem
    rcases List.mem_append.1 mem with waiting | added
    · exact handedTx.writer_of_pending waiting
    · rw [List.mem_singleton.1 added, writer]
  -- The batch `s` completes extends, for its writer only, what has run.
  have prefixes : ∀ w', through w' (done ++ ((tx.buffer w).pending ++ [s])) <+: through w' final := by
    intro w'
    refine List.IsPrefix.trans ?_ (within w')
    rw [through_append, through_of_writer batchWriter, through_append, through_singleton writer]
    by_cases same : w' = w
    · subst same
      simp only [if_true, ← List.append_assoc, (perWriter w').1]
      exact List.prefix_refl _
    · simp only [same, if_false, List.append_nil]
      exact Handed.done_prefix perWriter w'
  obtain ⟨t₂, runs⟩ := fits _ (fun x mem => by
    rcases List.mem_append.1 mem with mem | mem
    · exact hasWriter x mem
    · simp [batchWriter x mem]) prefixes
  obtain ⟨t₁, ranDone, ranBatch⟩ := execAll_append_eq_none.1 runs
  obtain ⟨store₁, ranStore, holds₁⟩ := holds.execAll_of_tables ranDone
  rw [ran, Prod.mk.injEq] at ranStore
  rw [← ranStore.1] at holds₁
  obtain ⟨store₂, ranBatchStore, -⟩ := holds₁.execAll_of_tables ranBatch
  obtain ⟨store', b, added⟩ := Buffer.add_of_execAll (by rw [ranBatchStore])
  refine ⟨{ tx.setBuffer w b with store := store' }, ?_⟩
  unfold Transaction.push
  rw [added]

/-! ## The calls of a revision's writers -/

/-- One call of a revision's writers. -/
inductive Call where
  | outdateNode (node : NodeId) (isFile : Bool)
  | insertNode (record : NodeRecord)
  | insertContent (node : NodeId) (data : Option String)
  | replaceContent (node : NodeId) (data : Option String)
  deriving DecidableEq, Repr

namespace Call

/-- The writes a call hands to the writers of revision `R`, in order. -/
def statements (R : Revnum) : Call → List Statement
  | .outdateNode node isFile =>
    (if isFile then [.outdateContent node (Revnum.prev R)] else []) ++
      [.outdateNode node (Revnum.prev R)]
  | .insertNode record => [.insertNode record]
  | .insertContent node data => [.insertContent node R data]
  | .replaceContent node data => [.outdateContent node (Revnum.prev R), .insertContent node R data]

/-- The writes calls at revision `R` hand to the writers, in order. -/
def writes (R : Revnum) (calls : List Call) : List Statement :=
  calls.flatMap (statements R)

/-- The check a call makes before it hands anything over: a node row inserted at revision `R`
opens at `R` and is live. -/
def Valid (R : Revnum) : Call → Prop
  | .insertNode record => record.revMin = R ∧ record.revMax = Revnum.head
  | _ => True

instance (R : Revnum) : DecidablePred (Valid R) := fun call => by
  cases call <;> unfold Valid <;> infer_instance

theorem ofRevision_of_mem_statements {R : Revnum} {call : Call} (valid : call.Valid R)
    {s : Statement} (mem : s ∈ call.statements R) : s.OfRevision R := by
  cases call with
  | outdateNode node isFile =>
    cases isFile
    · obtain rfl : s = .outdateNode node (Revnum.prev R) := by simpa [statements] using mem
      simp [OfRevision]
    · simp only [statements, if_true, List.cons_append, List.nil_append, List.mem_cons,
        List.not_mem_nil, or_false] at mem
      rcases mem with rfl | rfl <;> simp [OfRevision]
  | insertNode record => simp_all [statements, Valid, OfRevision]
  | insertContent node data => simp_all [statements, OfRevision]
  | replaceContent node data =>
    simp only [statements, List.mem_cons, List.not_mem_nil, or_false] at mem
    rcases mem with rfl | rfl <;> simp [OfRevision]

end Call

/-- Makes one call of the writers. -/
def call (tx : Transaction) : Call → Transaction × Except StoreError Unit
  | .outdateNode node isFile => tx.outdateNode node isFile
  | .insertNode record => tx.insertNode record
  | .insertContent node data => tx.insertContent node data
  | .replaceContent node data => tx.replaceContent node data

/-- Makes the calls in order, stopping at the first that fails. -/
def callAll (tx : Transaction) : List Call → Transaction × Except StoreError Unit
  | [] => (tx, .ok ())
  | first :: rest =>
    match tx.call first with
    | (tx, .ok ()) => tx.callAll rest
    | (tx, .error e) => (tx, .error e)

/-- A call that goes through passed its check and handed its writes to the writers. -/
theorem Handed.call {start tx tx' : Transaction} {handed : List Statement} {call : Call}
    (handedTx : Handed start tx handed) (called : tx.call call = (tx', .ok ())) :
    call.Valid start.revision ∧ Handed start tx' (handed ++ call.statements start.revision) := by
  rw [← handedTx.revision]
  cases call with
  | outdateNode node isFile =>
    refine ⟨trivial, ?_⟩
    cases isFile with
    | false => simpa [Call.statements] using handedTx.push rfl called
    | true =>
      simp only [Transaction.call, outdateNode, if_true] at called
      obtain ⟨⟨middle, result⟩, first⟩ : ∃ step,
          tx.push .contentOutdates (.outdateContent node (Revnum.prev tx.revision)) = step :=
        ⟨_, rfl⟩
      rw [first] at called
      cases result with
      | error e => simp at called
      | ok u =>
        simp only at called
        simpa [Call.statements] using (handedTx.push rfl first).push rfl called
  | insertNode record =>
    simp only [Transaction.call, insertNode] at called
    split at called
    · simp at called
    · rename_i opensHere
      rw [not_or, Decidable.not_not, Decidable.not_not] at opensHere
      exact ⟨opensHere, handedTx.push rfl called⟩
  | insertContent node data => exact ⟨trivial, handedTx.push rfl called⟩
  | replaceContent node data =>
    refine ⟨trivial, ?_⟩
    simp only [Transaction.call, replaceContent] at called
    obtain ⟨⟨middle, result⟩, first⟩ : ∃ step,
        tx.push .contentOutdates (.outdateContent node (Revnum.prev tx.revision)) = step :=
      ⟨_, rfl⟩
    rw [first] at called
    cases result with
    | error e => simp at called
    | ok u =>
      have handedMiddle := handedTx.push rfl first
      -- The content row opens at the revision of the transaction after the first push, which
      -- is the same.
      have sameRevision : middle.revision = tx.revision :=
        handedMiddle.revision.trans handedTx.revision.symm
      simp only [insertContent, sameRevision] at called
      simpa [Call.statements] using handedMiddle.push rfl called

theorem through_prefix_append (w : Writer) (first second : List Statement) :
    through w first <+: through w (first ++ second) :=
  (List.prefix_append first second).filter _

/-- Two writes handed one after the other both go through when the writes fit. -/
theorem Handed.push_push_ok {start tx : Transaction} {handed final : List Statement}
    {w w' : Writer} {s s' : Statement} {t : Tables} (holds : start.store.Holds lawful t true)
    (handedTx : Handed start tx handed) (writer : s.writer = some w)
    (writer' : s'.writer = some w') (fits : Fits t final)
    (within : ∀ w, through w (handed ++ [s, s']) <+: through w final) :
    ∃ middle, tx.push w s = (middle, .ok ()) ∧ Handed start middle (handed ++ [s]) ∧
      ∃ tx', middle.push w' s' = (tx', .ok ()) := by
  have withinFirst : ∀ w, through w (handed ++ [s]) <+: through w final := fun w =>
    List.IsPrefix.trans (by simpa using through_prefix_append w (handed ++ [s]) [s']) (within w)
  obtain ⟨middle, first⟩ := handedTx.push_ok holds writer fits withinFirst
  have handedMiddle := handedTx.push writer first
  exact ⟨middle, first, handedMiddle,
    handedMiddle.push_ok holds writer' fits (by simpa using within)⟩

/-- A call that passes its check goes through when the writes fit the tables. -/
theorem Handed.call_ok {start tx : Transaction} {handed final : List Statement} {call : Call}
    {t : Tables} (holds : start.store.Holds lawful t true) (handedTx : Handed start tx handed)
    (valid : call.Valid start.revision) (fits : Fits t final)
    (within : ∀ w, through w (handed ++ call.statements start.revision) <+: through w final) :
    ∃ tx', tx.call call = (tx', .ok ()) := by
  rw [← handedTx.revision] at valid within
  cases call with
  | outdateNode node isFile =>
    cases isFile with
    | false => exact handedTx.push_ok holds rfl fits (by simpa [Call.statements] using within)
    | true =>
      obtain ⟨middle, first, -, tx', second⟩ :=
        handedTx.push_push_ok holds rfl rfl fits (by simpa [Call.statements] using within)
      exact ⟨tx', by simp [Transaction.call, outdateNode, first, second]⟩
  | insertNode record =>
    obtain ⟨tx', pushed⟩ := handedTx.push_ok holds rfl fits (by simpa [Call.statements] using within)
    refine ⟨tx', ?_⟩
    simp only [Transaction.call, insertNode, valid.1, valid.2, ne_eq, not_true_eq_false,
      or_self, if_false]
    exact pushed
  | insertContent node data => exact handedTx.push_ok holds rfl fits within
  | replaceContent node data =>
    obtain ⟨middle, first, handedMiddle, tx', second⟩ :=
      handedTx.push_push_ok holds rfl rfl fits within
    have sameRevision : middle.revision = tx.revision :=
      handedMiddle.revision.trans handedTx.revision.symm
    exact ⟨tx', by simp [Transaction.call, replaceContent, first, insertContent, sameRevision, second]⟩

/-- Calls that go through passed their checks and handed their writes to the writers, in
order. -/
theorem Handed.callAll {start : Transaction} :
    ∀ {tx tx' : Transaction} {handed : List Statement} {calls : List Call},
      Handed start tx handed → tx.callAll calls = (tx', .ok ()) →
        (∀ call ∈ calls, call.Valid start.revision) ∧
          Handed start tx' (handed ++ Call.writes start.revision calls)
  | tx, tx', handed, [], handedTx, called => by
    simp only [Transaction.callAll, Prod.mk.injEq] at called
    obtain ⟨rfl, -⟩ := called
    simpa [Call.writes] using handedTx
  | tx, tx', handed, first :: rest, handedTx, called => by
    simp only [Transaction.callAll] at called
    cases firstCalled : tx.call first with
    | mk middle result =>
      rw [firstCalled] at called
      cases result with
      | error e => simp at called
      | ok u =>
        obtain ⟨validFirst, handedMiddle⟩ := handedTx.call firstCalled
        obtain ⟨validRest, handedAfter⟩ := Handed.callAll handedMiddle called
        refine ⟨?_, by simpa [Call.writes] using handedAfter⟩
        intro call mem
        rcases List.mem_cons.1 mem with rfl | mem
        · exact validFirst
        · exact validRest call mem

/-- Calls that pass their checks go through when the writes fit the tables. -/
theorem Handed.callAll_ok {start : Transaction} {final : List Statement} {t : Tables}
    (holds : start.store.Holds lawful t true) (fits : Fits t final) :
    ∀ {tx : Transaction} {handed : List Statement} {calls : List Call},
      Handed start tx handed → (∀ call ∈ calls, call.Valid start.revision) →
        (∀ w, through w (handed ++ Call.writes start.revision calls) <+: through w final) →
        ∃ tx', tx.callAll calls = (tx', .ok ())
  | tx, handed, [], _, _, _ => ⟨tx, rfl⟩
  | tx, handed, first :: rest, handedTx, valid, within => by
    have withinFirst : ∀ w, through w (handed ++ first.statements start.revision) <+:
        through w final := fun w =>
      List.IsPrefix.trans (through_prefix_append w _ (Call.writes start.revision rest))
        (by simpa [Call.writes] using within w)
    obtain ⟨middle, firstCalled⟩ :=
      handedTx.call_ok holds (valid first List.mem_cons_self) fits withinFirst
    have handedMiddle := (handedTx.call firstCalled).2
    obtain ⟨tx', restCalled⟩ := Handed.callAll_ok holds fits handedMiddle
      (fun call mem => valid call (List.mem_cons_of_mem first mem))
      (by simpa [Call.writes] using within)
    exact ⟨tx', by simp [Transaction.callAll, firstCalled, restCalled]⟩

/-! ## Closing the writers -/

end Transaction

/-- The counts of the four writers, read off a count for each. -/
def WriteCounts.ofWriter (count : Writer → Nat) : WriteCounts :=
  ⟨count .contentOutdates, count .nodeOutdates, count .nodeInserts, count .contentInserts⟩

namespace Transaction

variable {engine : Engine} {lawful : engine.Lawful}

theorem closeWriter_runs {tx tx' : Transaction} {w : Writer} {n : Nat}
    (closed : tx.closeWriter w = (tx', .ok n)) :
    tx.store.execAll (tx.buffer w).pending = (tx'.store, none) ∧
      n = (tx.buffer w).written + (tx.buffer w).pending.length ∧ tx'.before = tx.before ∧
      tx'.revision = tx.revision ∧ ∀ w', w' ≠ w → tx'.buffer w' = tx.buffer w' := by
  unfold closeWriter at closed
  cases flushed : (tx.buffer w).close tx.store with
  | mk store' result =>
    rw [flushed] at closed
    simp only [Prod.mk.injEq] at closed
    obtain ⟨rfl, rfl⟩ := closed
    obtain ⟨ran, count⟩ := Buffer.close_eq_ok' flushed
    refine ⟨ran, count, by simp, by simp, fun w' differ => ?_⟩
    simp only [buffer_store, buffer_setBuffer, if_neg differ]

theorem closeWriter_ok {tx : Transaction} {w : Writer} {t t' : Tables}
    (holds : tx.store.Holds lawful t true) (runs : t.execAll (tx.buffer w).pending = (t', none)) :
    ∃ tx' n, tx.closeWriter w = (tx', .ok n) ∧ tx'.store.Holds lawful t' true := by
  obtain ⟨store', ranStore, holds'⟩ := holds.execAll_of_tables runs
  obtain ⟨store'', n, flushed⟩ := Buffer.close_of_execAll (by rw [ranStore])
  have same : store'' = store' := by
    have := (Buffer.close_eq_ok' flushed).1
    rw [ranStore, Prod.mk.injEq] at this
    exact this.1.symm
  subst same
  refine ⟨{ tx.setBuffer w { tx.buffer w with pending := [] } with store := store'' }, n, ?_, holds'⟩
  unfold closeWriter
  rw [flushed]

/-- Closing goes through exactly when the four writers close in order, each giving its count. -/
theorem close_eq_ok_iff {tx tx' : Transaction} {counts : WriteCounts} :
    tx.close = (tx', .ok counts) ↔
      ∃ tx₁ tx₂ tx₃ n₁ n₂ n₃ n₄, tx.closeWriter .contentOutdates = (tx₁, .ok n₁) ∧
        tx₁.closeWriter .nodeOutdates = (tx₂, .ok n₂) ∧
        tx₂.closeWriter .nodeInserts = (tx₃, .ok n₃) ∧
        tx₃.closeWriter .contentInserts = (tx', .ok n₄) ∧
        counts = ⟨n₁, n₂, n₃, n₄⟩ := by
  constructor
  · intro closed
    unfold Transaction.close at closed
    obtain ⟨⟨tx₁, result₁⟩, first⟩ : ∃ step, tx.closeWriter .contentOutdates = step := ⟨_, rfl⟩
    rw [first] at closed
    cases result₁ with
    | error e => simp at closed
    | ok n₁ =>
    simp only at closed
    obtain ⟨⟨tx₂, result₂⟩, second⟩ : ∃ step, tx₁.closeWriter .nodeOutdates = step := ⟨_, rfl⟩
    rw [second] at closed
    cases result₂ with
    | error e => simp at closed
    | ok n₂ =>
    simp only at closed
    obtain ⟨⟨tx₃, result₃⟩, third⟩ : ∃ step, tx₂.closeWriter .nodeInserts = step := ⟨_, rfl⟩
    rw [third] at closed
    cases result₃ with
    | error e => simp at closed
    | ok n₃ =>
    simp only at closed
    obtain ⟨⟨tx₄, result₄⟩, fourth⟩ : ∃ step, tx₃.closeWriter .contentInserts = step := ⟨_, rfl⟩
    rw [fourth] at closed
    cases result₄ with
    | error e => simp at closed
    | ok n₄ =>
    simp only [Prod.mk.injEq, Except.ok.injEq] at closed
    obtain ⟨rfl, rfl⟩ := closed
    exact ⟨tx₁, tx₂, tx₃, n₁, n₂, n₃, n₄, first, second, third, fourth, rfl⟩
  · rintro ⟨tx₁, tx₂, tx₃, n₁, n₂, n₃, n₄, first, second, third, fourth, rfl⟩
    simp [Transaction.close, first, second, third, fourth]

theorem execAll_append_of {store store₁ store₂ : Store} {first second : List Statement}
    (ranFirst : store.execAll first = (store₁, none))
    (ranSecond : store₁.execAll second = (store₂, none)) :
    store.execAll (first ++ second) = (store₂, none) := by
  rw [Store.execAll_append ranFirst]
  exact ranSecond

/-- Closing the writers runs what waits in each buffer, the writers in order: every writer has
then run all it was handed, in order, and counts what it ran. -/
theorem Handed.close {start tx tx' : Transaction} {handed : List Statement} {counts : WriteCounts}
    (handedTx : Handed start tx handed) (closed : tx.close = (tx', .ok counts)) :
    tx'.before = start.before ∧ tx'.revision = start.revision ∧
      (∃ done, start.store.execAll done = (tx'.store, none) ∧ (∀ s ∈ done, s.writer.isSome) ∧
        ∀ w, through w done = through w handed) ∧
      counts = WriteCounts.ofWriter fun w => (start.buffer w).written + (through w handed).length := by
  obtain ⟨tx₁, tx₂, tx₃, n₁, n₂, n₃, n₄, first, second, third, fourth, rfl⟩ :=
    close_eq_ok_iff.1 closed
  obtain ⟨ran₁, count₁, before₁, revision₁, kept₁⟩ := closeWriter_runs first
  obtain ⟨ran₂, count₂, before₂, revision₂, kept₂⟩ := closeWriter_runs second
  obtain ⟨ran₃, count₃, before₃, revision₃, kept₃⟩ := closeWriter_runs third
  obtain ⟨ran₄, count₄, before₄, revision₄, -⟩ := closeWriter_runs fourth
  -- Each writer's buffer is as the calls left it until the writer is closed.
  have buffer₂ : tx₁.buffer .nodeOutdates = tx.buffer .nodeOutdates := kept₁ _ (by decide)
  have buffer₃ : tx₂.buffer .nodeInserts = tx.buffer .nodeInserts :=
    (kept₂ _ (by decide)).trans (kept₁ _ (by decide))
  have buffer₄ : tx₃.buffer .contentInserts = tx.buffer .contentInserts :=
    (kept₃ _ (by decide)).trans ((kept₂ _ (by decide)).trans (kept₁ _ (by decide)))
  rw [buffer₂] at ran₂ count₂
  rw [buffer₃] at ran₃ count₃
  rw [buffer₄] at ran₄ count₄
  obtain ⟨done, ran, hasWriter, perWriter⟩ := handedTx.ran
  have counted : ∀ w, (tx.buffer w).written + (tx.buffer w).pending.length =
      (start.buffer w).written + (through w handed).length := by
    intro w
    rw [(perWriter w).2, ← (perWriter w).1, List.length_append]
    omega
  refine ⟨by rw [before₄, before₃, before₂, before₁, handedTx.before],
    by rw [revision₄, revision₃, revision₂, revision₁, handedTx.revision],
    ⟨done ++ inWriterOrder fun w => (tx.buffer w).pending, ?_, ?_, fun w => ?_⟩, ?_⟩
  · simp only [inWriterOrder, ← List.append_assoc]
    exact execAll_append_of (execAll_append_of (execAll_append_of (execAll_append_of ran ran₁)
      ran₂) ran₃) ran₄
  · intro s mem
    rcases List.mem_append.1 mem with mem | mem
    · exact hasWriter s mem
    · simp only [inWriterOrder, List.mem_append] at mem
      rcases mem with ((mem | mem) | mem) | mem <;> simp [handedTx.writer_of_pending mem]
  · rw [through_append, through_inWriterOrder (fun _ _ mem => handedTx.writer_of_pending mem),
      (perWriter w).1]
  · simp only [WriteCounts.ofWriter, count₁, count₂, count₃, count₄, counted]

/-- Closing the writers goes through when the writes fit the tables. -/
theorem Handed.close_ok {start tx : Transaction} {handed final : List Statement} {t : Tables}
    (holds : start.store.Holds lawful t true) (handedTx : Handed start tx handed)
    (fits : Fits t final) (within : ∀ w, through w handed <+: through w final) :
    ∃ tx' counts, tx.close = (tx', .ok counts) := by
  obtain ⟨done, ran, hasWriter, perWriter⟩ := handedTx.ran
  have pendingWriter : ∀ w, ∀ s ∈ (tx.buffer w).pending, s.writer = some w :=
    fun _ _ mem => handedTx.writer_of_pending mem
  -- What has run and what waits, the writers in order, fits the tables.
  obtain ⟨t₄, runs⟩ := fits (done ++ inWriterOrder fun w => (tx.buffer w).pending)
    (by
      intro s mem
      rcases List.mem_append.1 mem with mem | mem
      · exact hasWriter s mem
      · simp only [inWriterOrder, List.mem_append] at mem
        rcases mem with ((mem | mem) | mem) | mem <;> simp [pendingWriter _ s mem])
    (fun w => by
      rw [through_append, through_inWriterOrder pendingWriter, (perWriter w).1]
      exact within w)
  simp only [inWriterOrder, ← List.append_assoc] at runs
  obtain ⟨t₃, runs₃, ran₄⟩ := execAll_append_eq_none.1 runs
  obtain ⟨t₂, runs₂, ran₃⟩ := execAll_append_eq_none.1 runs₃
  obtain ⟨t₁, runs₁, ran₂⟩ := execAll_append_eq_none.1 runs₂
  obtain ⟨t₀, ranDone, ran₁⟩ := execAll_append_eq_none.1 runs₁
  obtain ⟨store₀, ranStore, holds₀⟩ := holds.execAll_of_tables ranDone
  rw [ran, Prod.mk.injEq] at ranStore
  rw [← ranStore.1] at holds₀
  obtain ⟨tx₁, n₁, first, holds₁⟩ := closeWriter_ok holds₀ ran₁
  have kept₁ := (closeWriter_runs first).2.2.2.2
  obtain ⟨tx₂, n₂, second, holds₂⟩ :=
    closeWriter_ok holds₁ (by rw [kept₁ .nodeOutdates (by decide)]; exact ran₂)
  have kept₂ := (closeWriter_runs second).2.2.2.2
  obtain ⟨tx₃, n₃, third, holds₃⟩ :=
    closeWriter_ok holds₂
      (by rw [kept₂ .nodeInserts (by decide), kept₁ .nodeInserts (by decide)]; exact ran₃)
  have kept₃ := (closeWriter_runs third).2.2.2.2
  obtain ⟨tx₄, n₄, fourth, -⟩ := closeWriter_ok holds₃
    (by
      rw [kept₃ .contentInserts (by decide), kept₂ .contentInserts (by decide),
        kept₁ .contentInserts (by decide)]
      exact ran₄)
  exact ⟨tx₄, _, close_eq_ok_iff.2 ⟨tx₁, tx₂, tx₃, n₁, n₂, n₃, n₄, first, second, third, fourth, rfl⟩⟩

/-! ## A revision's writes, start to commit -/

/-- Makes the calls, closes the writers and commits: the store after the commit with the
writers' counts, or the first failure. -/
def finish (tx : Transaction) (calls : List Call) : Except StoreError (Store × WriteCounts) :=
  match tx.callAll calls with
  | (_, .error e) => .error e
  | (tx, .ok ()) =>
    match tx.close with
    | (_, .error e) => .error e
    | (tx, .ok counts) =>
      match tx.commit with
      | (_, .error e) => .error e
      | (store, .ok ()) => .ok (store, counts)

/-- What the calls of revision `R` need to go through on the tables `t`, whatever the batch
size. -/
def Goes (t : Tables) (R : Revnum) (calls : List Call) : Prop :=
  (∀ call ∈ calls, call.Valid R) ∧
    ∃ t', t.execAll (byWriter (Call.writes R calls)) = (t', none) ∧ t'.keysHold = true

/-- A transaction as it begins: the store holds the tables inside it, and no writer has anything
waiting or written. -/
structure Fresh (lawful : engine.Lawful) (tx : Transaction) (t : Tables) : Prop where
  holds : tx.store.Holds lawful t true
  empty : ∀ w, (tx.buffer w).pending = [] ∧ (tx.buffer w).written = 0
  positive : 1 ≤ tx.revision

theorem Call.ofRevision_of_mem_writes {R : Revnum} {calls : List Call}
    (valid : ∀ call ∈ calls, call.Valid R) : ∀ s ∈ Call.writes R calls, s.OfRevision R := by
  intro s mem
  obtain ⟨call, callMem, sMem⟩ := List.mem_flatMap.1 mem
  exact Call.ofRevision_of_mem_statements (valid call callMem) sMem

/-- Calls that go through from a fresh transaction did what `Goes` asks, counted each writer's
writes, and left the tables their writes give in the writers' order. -/
theorem Fresh.finish_eq_ok {tx : Transaction} {t : Tables} {calls : List Call} {store : Store}
    {counts : WriteCounts} (fresh : Fresh lawful tx t)
    (finished : tx.finish calls = .ok (store, counts)) :
    Goes t tx.revision calls ∧
      counts = WriteCounts.ofWriter (fun w => (through w (Call.writes tx.revision calls)).length) ∧
      store.Holds lawful (t.execAll (byWriter (Call.writes tx.revision calls))).1 false := by
  unfold finish at finished
  obtain ⟨⟨tx₁, result₁⟩, called⟩ : ∃ step, tx.callAll calls = step := ⟨_, rfl⟩
  rw [called] at finished
  cases result₁ with
  | error e => simp at finished
  | ok u =>
  simp only at finished
  obtain ⟨⟨tx₂, result₂⟩, closed⟩ : ∃ step, tx₁.close = step := ⟨_, rfl⟩
  rw [closed] at finished
  cases result₂ with
  | error e => simp at finished
  | ok counts₂ =>
  simp only at finished
  obtain ⟨⟨store₃, result₃⟩, committed⟩ : ∃ step, tx₂.commit = step := ⟨_, rfl⟩
  rw [committed] at finished
  cases result₃ with
  | error e => simp at finished
  | ok u' =>
  simp only [Except.ok.injEq, Prod.mk.injEq] at finished
  obtain ⟨rfl, rfl⟩ := finished
  obtain ⟨valid, handed⟩ := (Handed.refl fun w => (fresh.empty w).1).callAll called
  obtain ⟨-, revision₂, ⟨done, ran, hasWriter, sameThrough⟩, rfl⟩ := handed.close closed
  simp only [List.nil_append] at sameThrough
  -- What ran is a reordering of the writes in the writers' order, which run alike.
  have alike := runAlike_byWriter fresh.positive (Call.ofRevision_of_mem_writes valid) hasWriter
    sameThrough
  obtain ⟨t₂, ranTables, holds₂⟩ := fresh.holds.execAll_of_store ran
  have ranByWriter := (alike t t₂).1 ranTables
  have keys := holds₂.keysHold_of_commit (commit_eq_ok committed)
  have holds₃ := holds₂.commit_eq_ok (commit_eq_ok committed)
  refine ⟨⟨valid, t₂, ranByWriter, keys⟩, ?_, by rw [ranByWriter]; exact holds₃⟩
  simp [WriteCounts.ofWriter, (fresh.empty _).2]

/-- Calls that do what `Goes` asks go through from a fresh transaction, whatever its batch
size. -/
theorem Fresh.finish_ok {tx : Transaction} {t : Tables} {calls : List Call}
    (fresh : Fresh lawful tx t) (goes : Goes t tx.revision calls) :
    ∃ store counts, tx.finish calls = .ok (store, counts) := by
  obtain ⟨valid, t', runs, keys⟩ := goes
  have start := Handed.refl fun w => (fresh.empty w).1
  have fits := fits_of_execAll fresh.positive (Call.ofRevision_of_mem_writes valid) runs
  obtain ⟨tx₁, called⟩ := start.callAll_ok fresh.holds fits valid (fun w => by simp)
  have handed := (start.callAll called).2
  obtain ⟨tx₂, counts, closed⟩ := handed.close_ok fresh.holds fits (fun w => by simp)
  obtain ⟨-, -, ⟨done, ran, hasWriter, sameThrough⟩, -⟩ := handed.close closed
  simp only [List.nil_append] at sameThrough
  have alike := runAlike_byWriter fresh.positive (Call.ofRevision_of_mem_writes valid) hasWriter
    sameThrough
  obtain ⟨t₂, ranTables, holds₂⟩ := fresh.holds.execAll_of_store ran
  have same : t₂ = t' := by
    rw [(alike t t₂).1 ranTables, Prod.mk.injEq] at runs
    exact runs.1
  subst same
  obtain ⟨holds₃, committed⟩ := holds₂.commit keys
  refine ⟨tx₂.store.commit.1, counts, ?_⟩
  have committedTx : tx₂.commit = (tx₂.store.commit.1, .ok ()) := by
    unfold Transaction.commit
    rw [show tx₂.store.commit = (tx₂.store.commit.1, .ok ()) from Prod.ext rfl committed]
  simp [finish, called, closed, committedTx]

/-! ## Batch sizes -/

/-- The transaction with its writers' batches made of `capacity` statements, nothing waiting or
written. -/
def withCapacity (tx : Transaction) (capacity : Nat) : Transaction :=
  { tx with capacity := capacity, contentOutdates := Buffer.new capacity,
            nodeOutdates := Buffer.new capacity, nodeInserts := Buffer.new capacity,
            contentInserts := Buffer.new capacity }

@[simp] theorem store_withCapacity (tx : Transaction) (capacity : Nat) :
    (tx.withCapacity capacity).store = tx.store := rfl

@[simp] theorem revision_withCapacity (tx : Transaction) (capacity : Nat) :
    (tx.withCapacity capacity).revision = tx.revision := rfl

/-- A transaction opens alike whatever its batch size. -/
theorem begin_withCapacity {store : Store} {revision : Revnum} {capacity : Nat} {tx : Transaction}
    (opened : begin store revision capacity = .ok tx) (capacity' : Nat) :
    begin store revision capacity' = .ok (tx.withCapacity capacity') ∧
      tx.withCapacity capacity = tx := by
  unfold begin at opened ⊢
  split at opened
  · simp at opened
  rename_i inside
  rw [if_neg inside]
  obtain ⟨⟨conn, result⟩, began⟩ : ∃ step, store.begin = step := ⟨_, rfl⟩
  rw [began] at opened ⊢
  cases result with
  | error e => simp at opened
  | ok u =>
    simp only [Except.ok.injEq] at opened
    subst opened
    exact ⟨rfl, rfl⟩

theorem begin_error_withCapacity {store : Store} {revision : Revnum} {capacity : Nat}
    {e : StoreError} (failed : begin store revision capacity = .error e) (capacity' : Nat) :
    begin store revision capacity' = .error e := by
  unfold begin at failed ⊢
  split at failed
  · rename_i outside
    rw [if_pos outside]
    exact failed
  rename_i inside
  rw [if_neg inside]
  obtain ⟨⟨conn, result⟩, began⟩ : ∃ step, store.begin = step := ⟨_, rfl⟩
  rw [began] at failed ⊢
  cases result with
  | error e' => exact failed
  | ok u => simp at failed

/-- The revision row runs on its own, before and apart from the writers: whatever the batch
size, the transaction's store runs the one write. -/
theorem insertRevision_eq (tx : Transaction) (info : RevisionInfo)
    (matching : info.id = tx.revision) :
    tx.insertRevision info =
      ({ tx with store := (tx.store.exec (.insertRevision info)).1 },
        (tx.store.exec (.insertRevision info)).2) := by
  unfold insertRevision
  rw [if_neg (not_not.2 matching)]
  obtain ⟨⟨store', result⟩, ran⟩ : ∃ step, tx.store.exec (.insertRevision info) = step := ⟨_, rfl⟩
  rw [ran]
  cases result with
  | ok u =>
    have runs : tx.store.execAll [.insertRevision info] = (store', none) := by
      simp [Store.execAll, ran]
    -- A batch of one runs the row when it is added; a larger one when it is closed.
    by_cases small : tx.capacity ≤ 1 <;>
      simp [Buffer.add, Buffer.new, Buffer.flush, Buffer.close, runs, small, Except.map]
  | error e =>
    have runs : tx.store.execAll [.insertRevision info] = (store', some e) := by
      simp [Store.execAll, ran]
    -- A batch of one runs the row when it is added; a larger one when it is closed.
    by_cases small : tx.capacity ≤ 1 <;>
      simp [Buffer.add, Buffer.new, Buffer.flush, Buffer.close, runs, small, Except.map]

/-- The revision row is written alike whatever the batch size. -/
theorem insertRevision_withCapacity (tx : Transaction) (info : RevisionInfo) (capacity : Nat) :
    (tx.withCapacity capacity).insertRevision info =
      ((tx.insertRevision info).1.withCapacity capacity, (tx.insertRevision info).2) := by
  by_cases matching : info.id = tx.revision
  · rw [insertRevision_eq (tx.withCapacity capacity) info matching, insertRevision_eq tx info matching]
    rfl
  · unfold insertRevision
    rw [revision_withCapacity, if_pos matching, if_pos matching]

/-- Two runs of a revision's writes agree: one goes through exactly when the other does, and then
with the same counts, to stores that hold the same tables. -/
def WritesAgree (lawful : engine.Lawful) (first second : Except StoreError (Store × WriteCounts)) :
    Prop :=
  ((∃ r, first = .ok r) ↔ ∃ r, second = .ok r) ∧
    ∀ store₁ counts₁ store₂ counts₂, first = .ok (store₁, counts₁) →
      second = .ok (store₂, counts₂) →
        counts₁ = counts₂ ∧ ∃ t, store₁.Holds lawful t false ∧ store₂.Holds lawful t false

theorem writesAgree_of_error {first second : Except StoreError (Store × WriteCounts)}
    {e₁ e₂ : StoreError} (failed₁ : first = .error e₁) (failed₂ : second = .error e₂) :
    WritesAgree lawful first second := by
  subst failed₁ failed₂
  exact ⟨by simp, fun _ _ _ _ ok₁ => by simp at ok₁⟩

/-- The writers' calls, closing and commit of a transaction agree whatever its batch size. -/
theorem finish_withCapacity {tx : Transaction} {t : Tables} (holds : tx.store.Holds lawful t true)
    (positive : 1 ≤ tx.revision) (calls : List Call) (capacity₁ capacity₂ : Nat) :
    WritesAgree lawful ((tx.withCapacity capacity₁).finish calls)
      ((tx.withCapacity capacity₂).finish calls) := by
  have fresh : ∀ capacity, Fresh lawful (tx.withCapacity capacity) t := fun capacity =>
    ⟨holds, fun w => by cases w <;> exact ⟨rfl, rfl⟩, positive⟩
  refine ⟨?_, ?_⟩
  · constructor
    · rintro ⟨⟨store, counts⟩, finished⟩
      obtain ⟨store', counts', finished'⟩ :=
        (fresh capacity₂).finish_ok ((fresh capacity₁).finish_eq_ok finished).1
      exact ⟨_, finished'⟩
    · rintro ⟨⟨store, counts⟩, finished⟩
      obtain ⟨store', counts', finished'⟩ :=
        (fresh capacity₁).finish_ok ((fresh capacity₂).finish_eq_ok finished).1
      exact ⟨_, finished'⟩
  · intro store₁ counts₁ store₂ counts₂ finished₁ finished₂
    obtain ⟨-, counted₁, holds₁⟩ := (fresh capacity₁).finish_eq_ok finished₁
    obtain ⟨-, counted₂, holds₂⟩ := (fresh capacity₂).finish_eq_ok finished₂
    exact ⟨counted₁.trans counted₂.symm, _, holds₁, holds₂⟩

end Transaction

/-- One revision transaction with batches of `capacity`: the revision row, the writers' calls,
closing and commit. -/
def Store.commitCalls (store : Store) (revision : Revnum) (capacity : Nat)
    (row : Option RevisionInfo) (calls : List Transaction.Call) :
    Except StoreError (Store × WriteCounts) :=
  match Transaction.begin store revision capacity with
  | .error e => .error e
  | .ok tx =>
    match row with
    | none => tx.finish calls
    | some info =>
      match tx.insertRevision info with
      | (_, .error e) => .error e
      | (tx, .ok ()) => tx.finish calls

namespace Store

open Transaction

variable {engine : Engine} {lawful : engine.Lawful}

/-- Batching does not change what a revision transaction does: under any two batch sizes the same
calls go through or fail alike, committing the same tables and counts. -/
theorem commitCalls_withCapacity {store : Store} {t : Tables} (holds : store.Holds lawful t false)
    (revision : Revnum) (row : Option RevisionInfo) (calls : List Call) (capacity₁ capacity₂ : Nat) :
    WritesAgree lawful (store.commitCalls revision capacity₁ row calls)
      (store.commitCalls revision capacity₂ row calls) := by
  unfold commitCalls
  obtain ⟨opening, began⟩ : ∃ opening, Transaction.begin store revision capacity₁ = opening :=
    ⟨_, rfl⟩
  cases opening with
  | error e =>
    rw [began, begin_error_withCapacity began capacity₂]
    exact writesAgree_of_error rfl rfl
  | ok tx =>
    obtain ⟨began₂, same⟩ := begin_withCapacity began capacity₂
    rw [began, began₂, ← same]
    obtain ⟨⟨positive, -⟩, beginStore, -, sameRevision, -⟩ := begin_eq_ok began
    have holdsTx : tx.store.Holds lawful t true := by
      have opened := holds.begin.1
      rwa [beginStore] at opened
    cases row with
    | none => exact finish_withCapacity holdsTx (sameRevision ▸ positive) calls capacity₁ capacity₂
    | some info =>
      simp only [insertRevision_withCapacity]
      obtain ⟨⟨tx₁, result⟩, inserted⟩ : ∃ step, tx.insertRevision info = step := ⟨_, rfl⟩
      rw [inserted]
      cases result with
      | error e => exact writesAgree_of_error rfl rfl
      | ok u =>
        -- The row went through: the writers start from the tables with the row added.
        obtain ⟨matching, -, -⟩ := insertRevision_ran inserted
        rw [insertRevision_eq tx info matching, Prod.mk.injEq] at inserted
        obtain ⟨rfl, ran⟩ := inserted
        obtain ⟨holds₁, -⟩ := holdsTx.exec (.insertRevision info)
        exact finish_withCapacity holds₁ (sameRevision ▸ positive) calls capacity₁ capacity₂

end Store

namespace Transaction

theorem callAll_cons_eq_ok {tx tx' : Transaction} {call : Call} {rest : List Call} :
    tx.callAll (call :: rest) = (tx', .ok ()) ↔
      ∃ tx₁, tx.call call = (tx₁, .ok ()) ∧ tx₁.callAll rest = (tx', .ok ()) := by
  obtain ⟨⟨tx₁, result⟩, called⟩ : ∃ step, tx.call call = step := ⟨_, rfl⟩
  simp only [callAll, called]
  cases result with
  | error e => simp
  | ok u => simp

theorem callAll_append_eq_ok {tx tx' : Transaction} {first second : List Call} :
    tx.callAll (first ++ second) = (tx', .ok ()) ↔
      ∃ tx₁, tx.callAll first = (tx₁, .ok ()) ∧ tx₁.callAll second = (tx', .ok ()) := by
  induction first generalizing tx with
  | nil => simp [callAll]
  | cons call rest restCalled =>
    simp only [List.cons_append, callAll_cons_eq_ok, restCalled]
    constructor
    · rintro ⟨tx₁, called, tx₂, calledRest, calledSecond⟩
      exact ⟨tx₂, ⟨tx₁, called, calledRest⟩, calledSecond⟩
    · rintro ⟨tx₂, ⟨tx₁, called, calledRest⟩, calledSecond⟩
      exact ⟨tx₁, called, tx₂, calledRest, calledSecond⟩

theorem callAll_singleton_eq_ok {tx tx' : Transaction} {call : Call} :
    tx.callAll [call] = (tx', .ok ()) ↔ tx.call call = (tx', .ok ()) := by
  rw [callAll_cons_eq_ok]
  simp [callAll]


/-- The calls, the closing and the commit of a transaction, each going through. -/
theorem finish_eq_ok_iff {tx : Transaction} {calls : List Call} {store : Store}
    {counts : WriteCounts} :
    tx.finish calls = .ok (store, counts) ↔
      ∃ tx₁ tx₂, tx.callAll calls = (tx₁, .ok ()) ∧ tx₁.close = (tx₂, .ok counts) ∧
        tx₂.commit = (store, .ok ()) := by
  constructor
  · intro finished
    unfold finish at finished
    obtain ⟨⟨tx₁, result₁⟩, called⟩ : ∃ step, tx.callAll calls = step := ⟨_, rfl⟩
    rw [called] at finished
    cases result₁ with
    | error e => simp at finished
    | ok u =>
    simp only at finished
    obtain ⟨⟨tx₂, result₂⟩, closed⟩ : ∃ step, tx₁.close = step := ⟨_, rfl⟩
    rw [closed] at finished
    cases result₂ with
    | error e => simp at finished
    | ok counts₂ =>
    simp only at finished
    obtain ⟨⟨store₃, result₃⟩, committed⟩ : ∃ step, tx₂.commit = step := ⟨_, rfl⟩
    rw [committed] at finished
    cases result₃ with
    | error e => simp at finished
    | ok u' =>
    simp only [Except.ok.injEq, Prod.mk.injEq] at finished
    obtain ⟨rfl, rfl⟩ := finished
    exact ⟨tx₁, tx₂, called, closed, committed⟩
  · rintro ⟨tx₁, tx₂, called, closed, committed⟩
    simp [finish, called, closed, committed]

@[simp] theorem withCapacity_withCapacity (tx : Transaction) (capacity capacity' : Nat) :
    (tx.withCapacity capacity).withCapacity capacity' = tx.withCapacity capacity' := rfl

end Transaction

end TreeHistory
