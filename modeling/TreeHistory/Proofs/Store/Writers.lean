import TreeHistory.Indexer.Basic
import TreeHistory.Proofs.Ingest.Steps

/-!
# What the writers of a revision run

Whatever the capacity, when every write of a plan and the closing of the writers succeed, the
store has run each statement handed to the writers exactly once: a permutation of the plan's
(`Plan.statements`).
-/

namespace TreeHistory

namespace Store

theorem execAll_append {store store' : Store} {first : List Statement}
    (ran : store.execAll first = (store', none)) (rest : List Statement) :
    store.execAll (first ++ rest) = store'.execAll rest := by
  induction first generalizing store with
  | nil => simp only [execAll_nil, Prod.mk.injEq] at ran; rw [← ran.1]; rfl
  | cons statement more moreRan =>
    rw [List.cons_append, execAll.eq_2]
    rw [execAll.eq_2] at ran
    generalize store.exec statement = outcome at ran ⊢
    obtain ⟨after, result⟩ := outcome
    cases result with
    | ok u => exact moreRan ran
    | error e => simp at ran

end Store

namespace Buffer

theorem add_eq_ok {buffer buffer' : Buffer} {store store' : Store} {statement : Statement}
    (added : buffer.add store statement = (store', buffer', none)) :
    ∃ executed, store.execAll executed = (store', none) ∧
      executed ++ buffer'.pending = buffer.pending ++ [statement] := by
  simp only [add, flush] at added
  split at added
  · cases ran : store.execAll (buffer.pending ++ [statement]) with
    | mk ranStore failure =>
      rw [ran] at added
      cases failure with
      | none =>
        simp only [Prod.mk.injEq] at added
        obtain ⟨rfl, rfl, -⟩ := added
        exact ⟨buffer.pending ++ [statement], ran, by simp⟩
      | some e => simp at added
  · simp only [Prod.mk.injEq] at added
    obtain ⟨rfl, rfl, -⟩ := added
    exact ⟨[], rfl, rfl⟩

theorem close_eq_ok {buffer : Buffer} {store store' : Store} {written : Nat}
    (closed : buffer.close store = (store', .ok written)) :
    store.execAll buffer.pending = (store', none) := by
  simp only [close, flush] at closed
  cases ran : store.execAll buffer.pending with
  | mk ranStore failure =>
    rw [ran] at closed
    cases failure with
    | none =>
      simp only [Prod.mk.injEq] at closed
      rw [closed.1]
    | some e => simp at closed

end Buffer

namespace Plan

/-- The writes that close a node's window at the revision before `revision`, and a file's
content with it. -/
def outdateStatements (revision : Revnum) (entry : NodeId × NodeKind) : List Statement :=
  (if entry.2.isFile then [.outdateContent entry.1 (Revnum.prev revision)] else []) ++
    [.outdateNode entry.1 (Revnum.prev revision)]

/-- The writes that store a created node and its content. -/
def createdStatements (revision : Revnum) (node : CreatedNode) : List Statement :=
  .insertNode node.record ::
    (node.content.map fun body => .insertContent node.record.id revision body.data).toList

/-- The writes that replace the content of a file that existed before `revision`. -/
def modifiedStatements (revision : Revnum) (entry : NodeId × ContentBody) : List Statement :=
  [.outdateContent entry.1 (Revnum.prev revision), .insertContent entry.1 revision entry.2.data]

/-- The writes of a plan at `revision`, in the order the plan hands them to the writers. -/
def statements (plan : Plan) (revision : Revnum) : List Statement :=
  plan.outdated.flatMap (outdateStatements revision) ++
    plan.created.flatMap (createdStatements revision) ++
    plan.modified.flatMap (modifiedStatements revision)

end Plan

namespace Transaction

/-- The statements waiting in the writers' buffers. -/
def pending (tx : Transaction) : List Statement :=
  tx.contentOutdates.pending ++ tx.nodeOutdates.pending ++ tx.nodeInserts.pending ++
    tx.contentInserts.pending

@[simp] theorem pending_store (tx : Transaction) (store : Store) :
    ({ tx with store := store } : Transaction).pending = tx.pending := rfl

@[simp] theorem buffer_store (tx : Transaction) (store : Store) (writer : Writer) :
    ({ tx with store := store } : Transaction).buffer writer = tx.buffer writer := by
  cases writer <;> rfl

@[simp] theorem before_setBuffer (tx : Transaction) (writer : Writer) (b : Buffer) :
    (tx.setBuffer writer b).before = tx.before := by
  cases writer <;> rfl

@[simp] theorem revision_setBuffer (tx : Transaction) (writer : Writer) (b : Buffer) :
    (tx.setBuffer writer b).revision = tx.revision := by
  cases writer <;> rfl

@[simp] theorem buffer_setBuffer (tx : Transaction) (writer other : Writer) (b : Buffer) :
    (tx.setBuffer writer b).buffer other = if other = writer then b else tx.buffer other := by
  cases writer <;> cases other <;> rfl

theorem pending_setBuffer_perm (tx : Transaction) (writer : Writer) (b : Buffer) :
    ((tx.setBuffer writer b).pending ++ (tx.buffer writer).pending).Perm (tx.pending ++ b.pending) := by
  rw [List.perm_iff_count]
  intro statement
  cases writer <;> simp [pending, setBuffer, buffer, List.count_append] <;> omega

/-- `after` is `tx` with statements run on its store: each that waited or was handed in since ran
once or still waits. -/
structure Ran (tx after : Transaction) (handed : List Statement) : Prop where
  before : after.before = tx.before
  revision : after.revision = tx.revision
  executed : ∃ executed, tx.store.execAll executed = (after.store, none) ∧
    (executed ++ after.pending).Perm (tx.pending ++ handed)

theorem Ran.refl (tx : Transaction) : Ran tx tx [] :=
  ⟨rfl, rfl, ⟨[], rfl, by simp⟩⟩

theorem Ran.trans {tx middle after : Transaction} {first second : List Statement}
    (ranFirst : Ran tx middle first) (ranSecond : Ran middle after second) :
    Ran tx after (first ++ second) := by
  obtain ⟨executed, ran, perm⟩ := ranFirst.executed
  obtain ⟨executed', ran', perm'⟩ := ranSecond.executed
  refine ⟨ranSecond.before.trans ranFirst.before, ranSecond.revision.trans ranFirst.revision,
    executed ++ executed', by rw [Store.execAll_append ran]; exact ran', ?_⟩
  rw [List.perm_iff_count] at perm perm' ⊢
  intro statement
  have counted := perm statement
  have counted' := perm' statement
  simp only [List.count_append] at counted counted' ⊢
  omega

theorem push_ran {tx after : Transaction} {writer : Writer} {statement : Statement}
    (pushed : tx.push writer statement = (after, .ok ())) : Ran tx after [statement] := by
  unfold push at pushed
  cases added : (tx.buffer writer).add tx.store statement with
  | mk store' rest =>
    obtain ⟨b, failure⟩ := rest
    rw [added] at pushed
    cases failure with
    | some e => simp at pushed
    | none =>
      simp only [Prod.mk.injEq] at pushed
      obtain ⟨rfl, -⟩ := pushed
      obtain ⟨executed, ran, split⟩ := Buffer.add_eq_ok added
      refine ⟨by simp, by simp, executed, ran, ?_⟩
      have moved := pending_setBuffer_perm tx writer b
      rw [List.perm_iff_count] at moved ⊢
      intro other
      have counted := moved other
      have splitCount := congrArg (List.count other) split
      simp only [pending_store, List.count_append] at counted splitCount ⊢
      omega

theorem outdateNode_ran {tx after : Transaction} {node : NodeId} {isFile : Bool}
    (outdated : tx.outdateNode node isFile = (after, .ok ())) :
    Ran tx after
      ((if isFile then [.outdateContent node (Revnum.prev tx.revision)] else []) ++
        [.outdateNode node (Revnum.prev tx.revision)]) := by
  cases isFile with
  | false =>
    simp only [outdateNode, Bool.false_eq_true, if_false] at outdated
    simpa using push_ran outdated
  | true =>
    simp only [outdateNode, if_true] at outdated
    simp only [if_true, List.singleton_append]
    cases first : tx.push .contentOutdates (.outdateContent node (Revnum.prev tx.revision)) with
    | mk middle result =>
      rw [first] at outdated
      cases result with
      | error e => simp at outdated
      | ok u =>
        exact (push_ran first).trans (push_ran outdated)

theorem insertNode_ran {tx after : Transaction} {record : NodeRecord}
    (inserted : tx.insertNode record = (after, .ok ())) :
    record.revMin = tx.revision ∧ record.revMax = Revnum.head ∧
      Ran tx after [.insertNode record] := by
  unfold insertNode at inserted
  split at inserted
  · simp at inserted
  · rename_i opensHere
    rw [not_or, Decidable.not_not, Decidable.not_not] at opensHere
    exact ⟨opensHere.1, opensHere.2, push_ran inserted⟩

theorem insertContent_ran {tx after : Transaction} {node : NodeId} {data : Option String}
    (inserted : tx.insertContent node data = (after, .ok ())) :
    Ran tx after [.insertContent node tx.revision data] :=
  push_ran inserted

theorem replaceContent_ran {tx after : Transaction} {node : NodeId} {data : Option String}
    (replaced : tx.replaceContent node data = (after, .ok ())) :
    Ran tx after [.outdateContent node (Revnum.prev tx.revision),
      .insertContent node tx.revision data] := by
  unfold replaceContent at replaced
  cases first : tx.push .contentOutdates (.outdateContent node (Revnum.prev tx.revision)) with
  | mk middle result =>
    rw [first] at replaced
    cases result with
    | error e => simp at replaced
    | ok u =>
      have ranFirst := push_ran first
      have ranSecond := insertContent_ran replaced
      rw [ranFirst.revision] at ranSecond
      exact ranFirst.trans ranSecond

theorem closeWriter_ran {tx after : Transaction} {writer : Writer} {written : Nat}
    (closed : tx.closeWriter writer = (after, .ok written)) :
    Ran tx after [] ∧ after.buffer writer = { tx.buffer writer with pending := [] } ∧
      ∀ other, other ≠ writer → after.buffer other = tx.buffer other := by
  unfold closeWriter at closed
  cases flushed : (tx.buffer writer).close tx.store with
  | mk store' result =>
    rw [flushed] at closed
    simp only [Prod.mk.injEq] at closed
    obtain ⟨rfl, rfl⟩ := closed
    have ran := Buffer.close_eq_ok flushed
    refine ⟨⟨by simp, by simp, (tx.buffer writer).pending, ran, ?_⟩, by cases writer <;> rfl, ?_⟩
    · have moved := pending_setBuffer_perm tx writer { tx.buffer writer with pending := [] }
      rw [List.perm_iff_count] at moved ⊢
      intro other
      have counted := moved other
      simp only [pending_store, List.count_append, List.append_nil] at counted ⊢
      omega
    · intro other different
      cases writer <;> cases other <;> simp_all [buffer, setBuffer]

/-- Closing the writers runs every statement still waiting, and leaves none. -/
theorem close_ran {tx after : Transaction} {counts : WriteCounts}
    (closed : tx.close = (after, .ok counts)) : Ran tx after [] ∧ after.pending = [] := by
  unfold close at closed
  cases first : tx.closeWriter .contentOutdates with
  | mk tx₁ result₁ =>
    rw [first] at closed
    cases result₁ with
    | error e => simp at closed
    | ok n₁ =>
    simp only at closed
    cases second : tx₁.closeWriter .nodeOutdates with
    | mk tx₂ result₂ =>
    rw [second] at closed
    cases result₂ with
    | error e => simp at closed
    | ok n₂ =>
    simp only at closed
    cases third : tx₂.closeWriter .nodeInserts with
    | mk tx₃ result₃ =>
    rw [third] at closed
    cases result₃ with
    | error e => simp at closed
    | ok n₃ =>
    simp only at closed
    cases fourth : tx₃.closeWriter .contentInserts with
    | mk tx₄ result₄ =>
    rw [fourth] at closed
    cases result₄ with
    | error e => simp at closed
    | ok n₄ =>
    simp only [Prod.mk.injEq] at closed
    obtain ⟨rfl, -⟩ := closed
    obtain ⟨ran₁, emptied₁, kept₁⟩ := closeWriter_ran first
    obtain ⟨ran₂, emptied₂, kept₂⟩ := closeWriter_ran second
    obtain ⟨ran₃, emptied₃, kept₃⟩ := closeWriter_ran third
    obtain ⟨ran₄, emptied₄, kept₄⟩ := closeWriter_ran fourth
    refine ⟨(ran₁.trans (ran₂.trans (ran₃.trans ran₄))), ?_⟩
    -- each writer's buffer was emptied when it was closed and left alone afterwards
    have contentOutdates : tx₄.contentOutdates.pending = [] := by
      have := congrArg Buffer.pending emptied₁
      rw [← kept₂ _ (by decide), ← kept₃ _ (by decide), ← kept₄ _ (by decide)] at this
      exact this
    have nodeOutdates : tx₄.nodeOutdates.pending = [] := by
      have := congrArg Buffer.pending emptied₂
      rw [← kept₃ _ (by decide), ← kept₄ _ (by decide)] at this
      exact this
    have nodeInserts : tx₄.nodeInserts.pending = [] := by
      have := congrArg Buffer.pending emptied₃
      rw [← kept₄ _ (by decide)] at this
      exact this
    have contentInserts : tx₄.contentInserts.pending = [] := congrArg Buffer.pending emptied₄
    simp [pending, contentOutdates, nodeOutdates, nodeInserts, contentInserts]

theorem begin_eq_ok {store : Store} {revision : Revnum} {capacity : Nat} {tx : Transaction}
    (opened : begin store revision capacity = .ok tx) :
    (1 ≤ revision ∧ revision ≠ Revnum.head) ∧ store.begin = (tx.store, .ok ()) ∧
      tx.before = store ∧ tx.revision = revision ∧ tx.pending = [] := by
  unfold begin at opened
  split at opened
  · simp at opened
  rename_i inside
  cases began : store.begin with
  | mk conn result =>
    rw [began] at opened
    cases result with
    | error e => simp at opened
    | ok u =>
      simp only [Except.ok.injEq] at opened
      subst opened
      exact ⟨⟨Int.not_lt.1 fun h => inside (Or.inl h), fun h => inside (Or.inr h)⟩, rfl, rfl, rfl, by simp [pending, Buffer.new]⟩

/-- The revision row is written on its own, before any writer runs. -/
theorem insertRevision_ran {tx after : Transaction} {info : RevisionInfo}
    (inserted : tx.insertRevision info = (after, .ok ())) :
    info.id = tx.revision ∧ after.pending = tx.pending ∧ Ran tx after [.insertRevision info] := by
  unfold insertRevision at inserted
  split at inserted
  · simp at inserted
  rename_i same
  refine ⟨Decidable.not_not.1 same, ?_⟩
  cases added : (Buffer.new tx.capacity).add tx.store (.insertRevision info) with
  | mk store rest =>
    obtain ⟨buffer, failure⟩ := rest
    rw [added] at inserted
    cases failure with
    | some e => simp at inserted
    | none =>
      cases closed : buffer.close store with
      | mk store' result =>
        simp only [closed] at inserted
        cases result with
        | error e => simp [Except.map] at inserted
        | ok written =>
          simp only [Except.map, Prod.mk.injEq] at inserted
          obtain ⟨rfl, -⟩ := inserted
          obtain ⟨executed, ran, split⟩ := Buffer.add_eq_ok added
          refine ⟨pending_store tx store', rfl, rfl, executed ++ buffer.pending,
            by rw [Store.execAll_append ran]; exact Buffer.close_eq_ok closed, ?_⟩
          simp only [Buffer.new, List.nil_append] at split
          simpa [split] using (List.perm_append_singleton _ _).symm

theorem commit_eq_ok {tx : Transaction} {store : Store} (committed : tx.commit = (store, .ok ())) :
    tx.store.commit = (store, .ok ()) := by
  unfold commit at committed
  cases ended : tx.store.commit with
  | mk after result =>
    rw [ended] at committed
    cases result with
    | ok u => simpa using committed
    | error e => simp at committed

/-- Steps that each hand their statements to the writers, folded over a list. -/
theorem Ran.foldlM {α : Type} {step : Transaction → α → Except StoreError Transaction}
    {handed : Revnum → α → List Statement} {good : Revnum → α → Prop}
    (stepRan : ∀ tx x after, step tx x = .ok after →
      Ran tx after (handed tx.revision x) ∧ good tx.revision x) :
    ∀ (xs : List α) (tx after : Transaction), xs.foldlM step tx = .ok after →
      Ran tx after (xs.flatMap (handed tx.revision)) ∧ ∀ x ∈ xs, good tx.revision x
  | [], tx, after, folded => by
    simp only [List.foldlM_nil, pure, Except.pure, Except.ok.injEq] at folded
    subst folded
    exact ⟨Ran.refl tx, by simp⟩
  | x :: rest, tx, after, folded => by
    rw [List.foldlM_cons] at folded
    cases stepped : step tx x with
    | error e => simp [stepped, bind, Except.bind] at folded
    | ok middle =>
      simp only [stepped, bind, Except.bind] at folded
      obtain ⟨ranFirst, goodFirst⟩ := stepRan tx x middle stepped
      obtain ⟨ranRest, goodRest⟩ := Ran.foldlM stepRan rest middle after folded
      rw [ranFirst.revision] at ranRest goodRest
      refine ⟨by simpa using ranFirst.trans ranRest, ?_⟩
      intro y yMem
      rcases List.mem_cons.1 yMem with rfl | yMem
      · exact goodFirst
      · exact goodRest y yMem

end Transaction

namespace Indexer

theorem proceed_eq_ok {step : Transaction × Except StoreError Unit} {tx : Transaction}
    (proceeded : proceed step = .ok tx) : step = (tx, .ok ()) := by
  obtain ⟨tx', result⟩ := step
  cases result with
  | ok u => simp only [proceed, Except.ok.injEq] at proceeded; rw [proceeded]
  | error e => simp [proceed] at proceeded

/-- One created node: its record, then its content if it is a file. -/
theorem createNode_ran {tx after : Transaction} {node : CreatedNode}
    (written : (do
      let tx ← proceed (tx.insertNode node.record)
      match node.content with
      | some body => proceed (tx.insertContent node.record.id body.data)
      | none => pure tx) = Except.ok after) :
    tx.Ran after (Plan.createdStatements tx.revision node) ∧
      node.record.revMin = tx.revision ∧ node.record.revMax = Revnum.head := by
  obtain ⟨middle, inserted, rest⟩ := Except.bind_eq_ok.1 written
  obtain ⟨revMin, revMax, ranRecord⟩ := Transaction.insertNode_ran (proceed_eq_ok inserted)
  refine ⟨?_, revMin, revMax⟩
  cases content : node.content with
  | none =>
    simp only [content, pure, Except.pure, Except.ok.injEq] at rest
    subst rest
    simpa [Plan.createdStatements, content] using ranRecord
  | some body =>
    simp only [content] at rest
    have ranContent := Transaction.insertContent_ran (proceed_eq_ok rest)
    rw [ranRecord.revision] at ranContent
    simpa [Plan.createdStatements, content] using ranRecord.trans ranContent

/-- When a plan is written and the writers closed, every write of the plan ran exactly once, and
every created record opens at the revision. -/
theorem writePlan_ran {tx after : Transaction} {plan : Plan} {counts : WriteCounts}
    (written : writePlan tx plan = .ok (after, counts)) :
    tx.Ran after (plan.statements tx.revision) ∧ after.pending = [] ∧
      ∀ node ∈ plan.created, node.record.revMin = tx.revision ∧
        node.record.revMax = Revnum.head := by
  simp only [writePlan, Except.bind_eq_ok] at written
  obtain ⟨tx₁, outdated, tx₂, created, tx₃, modified, closing⟩ := written
  rcases closed : tx₃.close with ⟨tx₄, result⟩
  rw [closed] at closing
  cases result with
  | error e => simp [throw, throwThe, MonadExceptOf.throw] at closing
  | ok written =>
  simp only [pure, Except.pure, Except.ok.injEq, Prod.mk.injEq] at closing
  obtain ⟨rfl, -⟩ := closing
  obtain ⟨ran₁, -⟩ := @Transaction.Ran.foldlM _ _ Plan.outdateStatements (fun _ _ => True)
    (fun _ _ _ stepped => ⟨Transaction.outdateNode_ran (proceed_eq_ok stepped), trivial⟩)
    _ _ _ outdated
  obtain ⟨ran₂, opened⟩ := @Transaction.Ran.foldlM _ _ Plan.createdStatements
    (fun revision node => node.record.revMin = revision ∧ node.record.revMax = Revnum.head)
    (fun _ _ _ stepped => createNode_ran stepped) _ _ _ created
  obtain ⟨ran₃, -⟩ := @Transaction.Ran.foldlM _ _ Plan.modifiedStatements (fun _ _ => True)
    (fun _ _ _ stepped => ⟨Transaction.replaceContent_ran (proceed_eq_ok stepped), trivial⟩)
    _ _ _ modified
  obtain ⟨ran₄, flushed⟩ := Transaction.close_ran closed
  rw [ran₁.revision] at ran₂ opened
  rw [ran₂.revision, ran₁.revision] at ran₃
  refine ⟨?_, flushed, opened⟩
  simpa [Plan.statements] using ((ran₁.trans ran₂).trans ran₃).trans ran₄

/-- A revision written and committed. -/
theorem writeRevision_eq_ok {indexer : Indexer} {changeSet : ChangeSet} {ingestor : Ingestor}
    {store : Store} {summary : RevisionSummary}
    (written : indexer.writeRevision changeSet = (ingestor, .ok (store, summary))) :
    ∃ tx inserted applied plan after counts,
      Transaction.begin indexer.store changeSet.revision indexer.capacity = .ok tx ∧
      tx.insertRevision changeSet.info = (inserted, .ok ()) ∧
      indexer.ingestor.run (Ingestor.apply inserted.store changeSet) = (applied, .ok ()) ∧
      applied.run Ingestor.takePlan = (ingestor, .ok plan) ∧
      writePlan inserted plan = .ok (after, counts) ∧
      after.commit = (store, .ok ()) ∧
      summary = { revision := changeSet.revision, events := changeSet.changes.length,
                  nodesCreated := plan.created.length, nodesOutdated := plan.outdated.length,
                  contentsModified := plan.modified.length, discarded := plan.discarded,
                  rows := counts } := by
  unfold writeRevision at written
  cases began : Transaction.begin indexer.store changeSet.revision indexer.capacity with
  | error e => simp [began] at written
  | ok tx =>
  simp only [began] at written
  cases inserting : tx.insertRevision changeSet.info with
  | mk inserted result =>
  rw [inserting] at written
  cases result with
  | error e => simp at written
  | ok u =>
  simp only at written
  cases applying : indexer.ingestor.run (Ingestor.apply inserted.store changeSet) with
  | mk applied result =>
  rw [applying] at written
  cases result with
  | error e => simp at written
  | ok u =>
  simp only at written
  cases planning : applied.run Ingestor.takePlan with
  | mk planned result =>
  rw [planning] at written
  cases result with
  | error e => simp at written
  | ok plan =>
  simp only at written
  cases writing : writePlan inserted plan with
  | error e => simp [writing] at written
  | ok written' =>
  obtain ⟨after, counts⟩ := written'
  simp only [writing] at written
  cases committing : after.commit with
  | mk committed result =>
  rw [committing] at written
  cases result with
  | error e => simp at written
  | ok u =>
  simp only [Prod.mk.injEq, Except.ok.injEq] at written
  obtain ⟨rfl, rfl, rfl⟩ := written
  exact ⟨tx, inserted, applied, plan, after, counts, rfl, inserting, applying, planning, writing,
    committing, rfl⟩

end Indexer

end TreeHistory
