import TreeHistory.Store.Basic

/-!
# Statements

The five writes the index makes, each one SQL statement. Inserts fail on a taken key.
`outdateNode` must close exactly one live row of its node, and fails with `noLiveRow` otherwise;
`outdateContent` closes every live content row of the node, which may be none.
-/

namespace TreeHistory

namespace Statement

/-- Whether a write changed the rows it must: closing a node's window changes exactly one. -/
def verify : Statement → Nat → Except StoreError Unit
  | .outdateNode node _, changed => if changed = 1 then .ok () else .error (.noLiveRow node)
  | _, _ => .ok ()

end Statement

namespace Store

/-- Runs one write. -/
def exec (store : Store) (statement : Statement) : Store × Except StoreError Unit :=
  match store.write statement with
  | (store, .ok changes) => (store, statement.verify changes)
  | (store, .error e) => (store, .error e)

/-- Runs writes in order until one fails: the store after the ones that ran, and the failure if
there was one. -/
def execAll (store : Store) : List Statement → Store × Option StoreError
  | [] => (store, none)
  | statement :: rest =>
    match store.exec statement with
    | (store, .ok ()) => execAll store rest
    | (store, .error e) => (store, some e)

@[simp] theorem execAll_nil (store : Store) : store.execAll [] = (store, none) := rfl

end Store
end TreeHistory
