import TreeHistory.Store.Buffer

/-!
# Revision transactions

Every write of a revision goes through one transaction, which keeps the store as it was at the
start so that a rollback, or a failed commit, restores it. The revision row is written on its own;
the other writes go through four buffered writers, which `close` runs in order (content outdates,
node outdates, node inserts, content inserts), stopping at the first that fails.
-/

namespace TreeHistory

/-- The four writers of a revision, in the order they are closed. -/
inductive Writer where
  | contentOutdates
  | nodeOutdates
  | nodeInserts
  | contentInserts
  deriving DecidableEq, Repr

/-- How many statements each writer ran. -/
structure WriteCounts where
  contentOutdates : Nat
  nodeOutdates : Nat
  nodeInserts : Nat
  contentInserts : Nat
  deriving DecidableEq, Repr

/-- An open revision transaction with its writers. -/
structure Transaction where
  /-- The store when the transaction began. -/
  before : Store
  /-- The store with the statements run so far. -/
  store : Store
  revision : Revnum
  capacity : Nat
  contentOutdates : Buffer
  nodeOutdates : Buffer
  nodeInserts : Buffer
  contentInserts : Buffer

namespace Transaction

/-- Opens the transaction of `revision`, which must lie strictly between 0 and the sentinel. -/
def begin (store : Store) (revision : Revnum) (capacity : Nat) : Except StoreError Transaction :=
  if revision < 1 ∨ revision = Revnum.head then .error (.invalidInput "revision out of range")
  else
    match store.begin with
    | (opened, .ok ()) =>
      .ok { before := store, store := opened, revision := revision, capacity := capacity,
            contentOutdates := Buffer.new capacity, nodeOutdates := Buffer.new capacity,
            nodeInserts := Buffer.new capacity, contentInserts := Buffer.new capacity }
    | (_, .error e) => .error e

/-- The buffer of a writer. -/
def buffer (tx : Transaction) : Writer → Buffer
  | .contentOutdates => tx.contentOutdates
  | .nodeOutdates => tx.nodeOutdates
  | .nodeInserts => tx.nodeInserts
  | .contentInserts => tx.contentInserts

/-- Replaces the buffer of a writer. -/
def setBuffer (tx : Transaction) : Writer → Buffer → Transaction
  | .contentOutdates, b => { tx with contentOutdates := b }
  | .nodeOutdates, b => { tx with nodeOutdates := b }
  | .nodeInserts, b => { tx with nodeInserts := b }
  | .contentInserts, b => { tx with contentInserts := b }

/-- Hands a statement to a writer. -/
def push (tx : Transaction) (writer : Writer) (statement : Statement) :
    Transaction × Except StoreError Unit :=
  let (store, buffer, failure) := (tx.buffer writer).add tx.store statement
  let tx := { tx.setBuffer writer buffer with store := store }
  match failure with
  | some e => (tx, .error e)
  | none => (tx, .ok ())

/-- Writes the revision row, which must be this transaction's revision. -/
def insertRevision (tx : Transaction) (info : RevisionInfo) : Transaction × Except StoreError Unit :=
  if info.id ≠ tx.revision then
    (tx, .error (.invalidInput "revision row does not match the open transaction"))
  else
    let (store, buffer, failure) := (Buffer.new tx.capacity).add tx.store (.insertRevision info)
    match failure with
    | some e => ({ tx with store := store }, .error e)
    | none =>
      let (store, result) := buffer.close store
      ({ tx with store := store }, result.map fun _ => ())

/-- Closes a node's window, and for a file its content's, at the revision before this one. -/
def outdateNode (tx : Transaction) (node : NodeId) (isFile : Bool) :
    Transaction × Except StoreError Unit :=
  let revMax := Revnum.prev tx.revision
  if isFile then
    match tx.push .contentOutdates (.outdateContent node revMax) with
    | (tx, .ok ()) => tx.push .nodeOutdates (.outdateNode node revMax)
    | failed => failed
  else tx.push .nodeOutdates (.outdateNode node revMax)

/-- Inserts a node row, which must open at this revision and be live. -/
def insertNode (tx : Transaction) (record : NodeRecord) : Transaction × Except StoreError Unit :=
  if record.revMin ≠ tx.revision ∨ record.revMax ≠ Revnum.head then
    (tx, .error (.invalidInput "inserted nodes must open at the current revision"))
  else tx.push .nodeInserts (.insertNode record)

/-- Inserts a content row of `node` from this revision. -/
def insertContent (tx : Transaction) (node : NodeId) (data : Option String) :
    Transaction × Except StoreError Unit :=
  tx.push .contentInserts (.insertContent node tx.revision data)

/-- Replaces the live content of a file that existed before this revision. -/
def replaceContent (tx : Transaction) (node : NodeId) (data : Option String) :
    Transaction × Except StoreError Unit :=
  match tx.push .contentOutdates (.outdateContent node (Revnum.prev tx.revision)) with
  | (tx, .ok ()) => tx.insertContent node data
  | failed => failed

/-- Closes one writer. -/
def closeWriter (tx : Transaction) (writer : Writer) : Transaction × Except StoreError Nat :=
  let (store, result) := (tx.buffer writer).close tx.store
  ({ tx.setBuffer writer { tx.buffer writer with pending := [] } with store := store }, result)

/-- Closes the writers in order, stopping at the first that fails. -/
def close (tx : Transaction) : Transaction × Except StoreError WriteCounts :=
  match tx.closeWriter .contentOutdates with
  | (tx, .error e) => (tx, .error e)
  | (tx, .ok contentOutdates) =>
    match tx.closeWriter .nodeOutdates with
    | (tx, .error e) => (tx, .error e)
    | (tx, .ok nodeOutdates) =>
      match tx.closeWriter .nodeInserts with
      | (tx, .error e) => (tx, .error e)
      | (tx, .ok nodeInserts) =>
        match tx.closeWriter .contentInserts with
        | (tx, .error e) => (tx, .error e)
        | (tx, .ok contentInserts) =>
          (tx, .ok { contentOutdates := contentOutdates, nodeOutdates := nodeOutdates,
                     nodeInserts := nodeInserts, contentInserts := contentInserts })

/-- Ends the transaction keeping its writes, or restores the store when the commit fails. -/
def commit (tx : Transaction) : Store × Except StoreError Unit :=
  match tx.store.commit with
  | (store, .ok ()) => (store, .ok ())
  | (_, .error e) => (tx.before, .error e)

/-- Ends the transaction dropping its writes. -/
def rollback (tx : Transaction) : Store := tx.before

end Transaction
end TreeHistory
