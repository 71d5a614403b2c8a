import TreeHistory.Store.Statement

/-!
# Buffered writers

A buffer collects statements and runs them in batches of `capacity`, in order; `close` runs what
is left. When a statement of a batch fails, those before it stay run, the rest of the batch is
dropped, and the call that ran the batch reports the failure.
-/

namespace TreeHistory

/-- Statements waiting to run, and how many have run. -/
structure Buffer where
  /-- How many statements make a batch; at least one. -/
  capacity : Nat
  pending : List Statement := []
  written : Nat := 0
  deriving Repr

namespace Buffer

/-- The batch size used when none is configured. -/
def defaultCapacity : Nat := 1000

/-- An empty buffer; a capacity of 0 acts as 1. -/
def new (capacity : Nat) : Buffer := { capacity := max capacity 1 }

/-- Runs every pending statement, and gives how many there were. -/
def flush (buffer : Buffer) (store : Store) : Store × Buffer × Except StoreError Nat :=
  match store.execAll buffer.pending with
  | (store, none) =>
    (store, { buffer with pending := [], written := buffer.written + buffer.pending.length },
      .ok buffer.pending.length)
  | (store, some e) => (store, { buffer with pending := [] }, .error e)

/-- Adds a statement, running the batch when it is full. -/
def add (buffer : Buffer) (store : Store) (statement : Statement) :
    Store × Buffer × Option StoreError :=
  let buffer := { buffer with pending := buffer.pending ++ [statement] }
  if buffer.pending.length ≥ buffer.capacity then
    match buffer.flush store with
    | (store, buffer, .ok _) => (store, buffer, none)
    | (store, buffer, .error e) => (store, buffer, some e)
  else (store, buffer, none)

/-- Runs what is left and gives the number of statements written. -/
def close (buffer : Buffer) (store : Store) : Store × Except StoreError Nat :=
  match buffer.flush store with
  | (store, buffer, .ok _) => (store, .ok buffer.written)
  | (store, _, .error e) => (store, .error e)

end Buffer
end TreeHistory
