import TreeHistory.Path
import TreeHistory.Store.Basic

/-!
# Feed errors

Why reading a change feed stopped. Every error that belongs to a line carries that line's number,
counting from 1 and counting blank lines too; an error of the underlying stream has none.
-/

namespace TreeHistory

/-- Why reading a change feed stopped. -/
inductive FeedError where
  /-- The stream could not be read as text. -/
  | io (error : OsError)
  /-- The line is not a JSON revision object of the feed's shape. -/
  | json (line : Nat)
  /-- The line names an unknown action or kind. -/
  | code (line : Nat) (error : CodeError)
  /-- A path of the line cannot be normalized. -/
  | path (line : Nat) (error : PathError)
  /-- The line's date is not an RFC 3339 timestamp. -/
  | date (line : Nat) (value : String)
  /-- The line breaks a rule of the feed. -/
  | malformed (line : Nat) (reason : String)
  deriving DecidableEq, Repr

namespace FeedError

/-- The text of a feed error. -/
def message : FeedError → String
  | .io error => "io: " ++ error.message
  | .json line => "line " ++ toString line ++ ": not a revision object"
  | .code line error => "line " ++ toString line ++ ": " ++ error.message
  | .path line error => "line " ++ toString line ++ ": " ++ error.message
  | .date line value => "line " ++ toString line ++ ": unparsable date " ++ Text.quote value
  | .malformed line reason => "line " ++ toString line ++ ": " ++ reason

end FeedError
end TreeHistory
