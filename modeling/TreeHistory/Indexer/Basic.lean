import TreeHistory.Ingest.Apply
import TreeHistory.Store.Transaction

/-!
# The indexer

The indexer keeps the store and the live tree in step. Opening it on a store rebuilds the live
tree from the store's live rows and remembers the last revision stored: feeding those revisions
again skips them, as long as nothing new has been committed since. `indexRevision` writes one
revision in one transaction; after a failure the live tree may be ahead of the store, so the next
revision first rebuilds it (`recover`). `run` indexes a feed, retrying a revision that failed for
a reason worth a retry up to `maxRetries` times.
-/

namespace TreeHistory

/-- What indexing one revision did. -/
structure RevisionSummary where
  revision : Revnum
  events : Nat
  nodesCreated : Nat
  nodesOutdated : Nat
  contentsModified : Nat
  discarded : Nat
  rows : WriteCounts
  deriving DecidableEq, Repr

/-- How a revision ended when it did not fail. -/
inductive Outcome where
  /-- It was stored before the indexer was opened. -/
  | skipped
  | committed (summary : RevisionSummary)
  deriving DecidableEq, Repr

/-- What a run did. -/
structure RunSummary where
  committed : Nat := 0
  skipped : Nat := 0
  retries : Nat := 0
  nodesCreated : Nat := 0
  nodesOutdated : Nat := 0
  contentsModified : Nat := 0
  lastRevision : Option Revnum := none
  deriving DecidableEq, Repr

namespace RunSummary

/-- Counts a committed revision. -/
def record (summary : RunSummary) (revision : RevisionSummary) : RunSummary :=
  { summary with committed := summary.committed + 1,
                 nodesCreated := summary.nodesCreated + revision.nodesCreated,
                 nodesOutdated := summary.nodesOutdated + revision.nodesOutdated,
                 contentsModified := summary.contentsModified + revision.contentsModified,
                 lastRevision := some revision.revision }

end RunSummary

/-- The default number of retries of a revision. -/
def defaultMaxRetries : Nat := 3

/-- A store with its live tree and what the indexer knows of their history. -/
structure Indexer where
  store : Store
  /-- How many statements make a batch. -/
  capacity : Nat
  ingestor : Ingestor
  /-- The last revision stored when the indexer was opened. -/
  resumeAfter : Option Revnum
  /-- The last revision committed. -/
  lastRevision : Option Revnum
  maxRetries : Nat := defaultMaxRetries
  /-- Whether the live tree may be ahead of the store. -/
  diverged : Bool := false

namespace Indexer

/-- Rebuilds the live tree from the store's live rows. Ids already handed out stay used. -/
def recover (indexer : Indexer) : Except IndexError Indexer := do
  let live ← indexer.store.liveNodes.mapError IndexError.store
  let tree ← (LiveTree.ofRecords live).mapError fun e => IndexError.fatal (.tree e)
  let maxId ← indexer.store.maxNodeId.mapError IndexError.store
  let lastId := max maxId indexer.ingestor.lastId
  let lastRevision ← indexer.store.lastRevision.mapError IndexError.store
  pure { indexer with ingestor := { tree := tree, lastId := lastId },
                      lastRevision := lastRevision, diverged := false }

/-- Opens an indexer on a store: the last revision stored, then the live tree. -/
def ofStore (store : Store) (capacity : Nat) : Except IndexError Indexer := do
  let resumeAfter ← store.lastRevision.mapError IndexError.store
  recover { store := store, capacity := capacity, ingestor := {},
            resumeAfter := resumeAfter, lastRevision := resumeAfter }

/-- Keeps the transaction of a step that succeeded. -/
def proceed (step : Transaction × Except StoreError Unit) : Except StoreError Transaction :=
  match step with
  | (tx, .ok ()) => .ok tx
  | (_, .error e) => .error e

/-- Hands a plan to the writers and closes them. -/
def writePlan (tx : Transaction) (plan : Plan) : Except StoreError (Transaction × WriteCounts) := do
  let tx ← plan.outdated.foldlM (fun tx entry => proceed (tx.outdateNode entry.1 entry.2.isFile)) tx
  let tx ← plan.created.foldlM (fun tx node => do
      let tx ← proceed (tx.insertNode node.record)
      match node.content with
      | some body => proceed (tx.insertContent node.record.id body.data)
      | none => pure tx) tx
  let tx ← plan.modified.foldlM (fun tx entry => proceed (tx.replaceContent entry.1 entry.2.data)) tx
  match tx.close with
  | (tx, .ok counts) => pure (tx, counts)
  | (_, .error e) => throw e

/-- Writes a revision in one transaction: the ingestor after applying it, and the committed
store with the summary, or the error. -/
def writeRevision (indexer : Indexer) (changeSet : ChangeSet) :
    Ingestor × Except IndexError (Store × RevisionSummary) :=
  match Transaction.begin indexer.store changeSet.revision indexer.capacity with
  | .error e => (indexer.ingestor, .error (.store e))
  | .ok tx =>
    match tx.insertRevision changeSet.info with
    | (_, .error e) => (indexer.ingestor, .error (.store e))
    | (tx, .ok ()) =>
      match indexer.ingestor.run (Ingestor.apply tx.store changeSet) with
      | (ingestor, .error e) => (ingestor, .error e)
      | (ingestor, .ok ()) =>
        match ingestor.run Ingestor.takePlan with
        | (ingestor, .error e) => (ingestor, .error e)
        | (ingestor, .ok plan) =>
          match writePlan tx plan with
          | .error e => (ingestor, .error (.store e))
          | .ok (tx, counts) =>
            match tx.commit with
            | (_, .error e) => (ingestor, .error (.store e))
            | (store, .ok ()) =>
              (ingestor, .ok (store,
                { revision := changeSet.revision, events := changeSet.changes.length,
                  nodesCreated := plan.created.length, nodesOutdated := plan.outdated.length,
                  contentsModified := plan.modified.length, discarded := plan.discarded,
                  rows := counts }))

/-- Whether a revision was stored before the indexer was opened and nothing has been committed
since. -/
def isResumed (indexer : Indexer) (revision : Revnum) : Bool :=
  match indexer.resumeAfter with
  | some resumeAfter => revision ≤ resumeAfter && indexer.lastRevision == some resumeAfter
  | none => false

/-- Indexes one revision. -/
def indexRevision (indexer : Indexer) (changeSet : ChangeSet) :
    Indexer × Except IndexError Outcome :=
  let revision := changeSet.revision
  if revision < 1 ∨ revision = Revnum.head then (indexer, .error (.fatal (.invalidRevision revision)))
  else
    let recovered := if indexer.diverged then indexer.recover else .ok indexer
    match recovered with
    | .error e => (indexer, .error e)
    | .ok indexer =>
      if indexer.isResumed revision then (indexer, .ok .skipped)
      else
        match indexer.lastRevision with
        | some last =>
          if revision ≤ last then (indexer, .error (.fatal (.outOfOrder last revision)))
          else commitRevision indexer changeSet
        | none => commitRevision indexer changeSet
where
  /-- Writes the revision and records the outcome. -/
  commitRevision (indexer : Indexer) (changeSet : ChangeSet) :
      Indexer × Except IndexError Outcome :=
    match indexer.writeRevision changeSet with
    | (ingestor, .ok (store, summary)) =>
      ({ indexer with store := store, ingestor := ingestor,
                      lastRevision := some changeSet.revision }, .ok (.committed summary))
    | (ingestor, .error e) => ({ indexer with ingestor := ingestor, diverged := true }, .error e)

/-- Indexes one change set of a run, retrying while attempts are left. -/
def runOne (changeSet : ChangeSet) :
    Nat → Indexer → RunSummary → Indexer × Except IndexError RunSummary
  | attemptsLeft, indexer, summary =>
    match indexer.indexRevision changeSet with
    | (indexer, .ok .skipped) => (indexer, .ok { summary with skipped := summary.skipped + 1 })
    | (indexer, .ok (.committed revision)) => (indexer, .ok (summary.record revision))
    | (indexer, .error e) =>
      match attemptsLeft with
      | attempts + 1 =>
        if e.isRetryable then
          match indexer.recover with
          | .ok indexer => runOne changeSet attempts indexer { summary with retries := summary.retries + 1 }
          | .error e => (indexer, .error e)
        else (indexer, .error e)
      | 0 => (indexer, .error e)

/-- Indexes change sets in order; `stop` is the feed's error after the last of them, if any. -/
def run (indexer : Indexer) (changeSets : List ChangeSet) (stop : Option FeedError) :
    Indexer × Except IndexError RunSummary :=
  let start : Indexer × Except IndexError RunSummary :=
    (indexer, .ok { lastRevision := indexer.lastRevision })
  let (indexer, result) := changeSets.foldl (fun (indexer, result) changeSet =>
    match result with
    | .ok summary => runOne changeSet indexer.maxRetries indexer summary
    | .error e => (indexer, .error e)) start
  match result, stop with
  | .ok _, some e => (indexer, .error (.feed e))
  | _, _ => (indexer, result)

end Indexer
end TreeHistory
