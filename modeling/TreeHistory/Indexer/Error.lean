import TreeHistory.Tree.Basic
import TreeHistory.Feed.Error

/-!
# Indexing errors

A revision that breaks a rule of the index is a `Violation`; indexing stops there for good. An
`IndexError` is a violation, a feed error or a store error. Of these, only the store's engine and
system failures are worth a retry; everything else is fatal.
-/

namespace TreeHistory

/-- A rule of the index that a revision broke. -/
inductive Violation where
  /-- The live tree refused an operation. -/
  | tree (error : TreeError)
  /-- A path of the revision cannot be normalized. -/
  | invalidPath (error : PathError)
  /-- A copy source did not exist at its revision. -/
  | predecessorUnresolved (path : String) (revision : Revnum)
  /-- A revision came that is not after the last one indexed. -/
  | outOfOrder (last got : Revnum)
  /-- A revision number outside `1` to just below the sentinel. -/
  | invalidRevision (revision : Revnum)
  /-- An event the index cannot apply. -/
  | invalidEvent (path reason : String)
  deriving DecidableEq, Repr

namespace Violation

/-- The text of a violation. -/
def message : Violation → String
  | .tree error => error.message
  | .invalidPath error => error.message
  | .predecessorUnresolved path revision =>
    "copy source " ++ path ++ "@" ++ Revnum.display revision ++ " was not live at that revision"
  | .outOfOrder last got =>
    "revision " ++ Revnum.display got ++ " arrived after " ++ Revnum.display last
  | .invalidRevision revision =>
    "revision " ++ Revnum.display revision ++ " is not a valid revision number"
  | .invalidEvent path reason => "invalid event for " ++ path ++ ": " ++ reason

end Violation

/-- Why indexing stopped. -/
inductive IndexError where
  | fatal (violation : Violation)
  | feed (error : FeedError)
  | store (error : StoreError)
  deriving DecidableEq, Repr

namespace IndexError

/-- The text of an indexing error. -/
def message : IndexError → String
  | .fatal violation => "fatal: " ++ violation.message
  | .feed error => "feed: " ++ error.message
  | .store error => "store: " ++ error.message

/-- Whether a retry may succeed: only the store's engine and system failures. -/
def isRetryable : IndexError → Bool
  | .store error => error.isTransient
  | _ => false

/-- Whether indexing cannot go on. -/
def isFatal (error : IndexError) : Bool := !error.isRetryable

end IndexError
end TreeHistory
