import TreeHistory.Feed.Record
import TreeHistory.Feed.Error
import TreeHistory.Json.Reader
import TreeHistory.Date.Rfc3339
import TreeHistory.Text.Utf8

/-!
# JSON-lines change feeds

A change feed holds one revision per line. Each line must be UTF-8 text; a blank line is passed
over (though it counts for the line numbers), and every other line must hold one revision record,
which becomes a change set. A `Feed.Reader` reads the feed one change set at a time
(`Reader.next`), going on with the next line after an error; `Feed.read` pulls change sets until
the feed ends or one is an error.
-/

namespace TreeHistory

/-- Turns a change of the feed into a change of the index. -/
def ChangeLine.toChange (raw : ChangeLine) (line : Nat) : Except FeedError Change := do
  let action ← (ChangeAction.parse raw.action).mapError (FeedError.code line)
  let kind ← (NodeKind.parse raw.kind).mapError (FeedError.code line)
  let path ← (Path.normalize raw.path).mapError (FeedError.path line)
  let copyFrom ← match raw.copyFromPath, raw.copyFromRev with
    | some copyPath, some copyRevision =>
      if action = .added ∨ action = .replaced then do
        let copyPath ← (Path.normalize copyPath).mapError (FeedError.path line)
        pure (some { path := copyPath, revision := copyRevision : CopySource })
      else throw (.malformed line "only added or replaced paths can carry a copy source")
    | none, none => pure none
    | some _, none => throw (.malformed line "copy_from_path requires copy_from_rev")
    | none, some _ => throw (.malformed line "copy_from_rev requires copy_from_path")
  pure { path := path, action := action, kind := kind, copyFrom := copyFrom, data := raw.data }

/-- Turns a revision of the feed into a change set. -/
def RevisionLine.toChangeSet (raw : RevisionLine) (line : Nat) : Except FeedError ChangeSet := do
  if raw.revision < 1 then throw (.malformed line "revision must be positive")
  let instant ← match Date.parse raw.date with
    | some instant => pure instant
    | none => throw (.date line raw.date)
  let changes ← raw.changes.mapM (·.toChange line)
  pure { info := { id := raw.revision, author := raw.author.filter (fun a => !a.isEmpty),
                   dateMs := instant.tdiv 1000000, message := raw.message },
         changes := changes }

namespace Feed

/-- Splits bytes into lines at line feeds; a line feed at the very end starts no new line. -/
def splitLines (bytes : List UInt8) : List (List UInt8) :=
  if bytes.isEmpty then []
  else
    let pieces := bytes.splitOn 10
    if bytes.getLast? = some 10 then pieces.dropLast else pieces

/-- Reads one non-blank line. -/
def readLine (line : Nat) (text : String) : Except FeedError ChangeSet :=
  match (Json.parse text).bind RevisionLine.ofJson with
  | some raw => raw.toChangeSet line
  | none => .error (.json line)

/-- A feed being read: the lines not read yet, and how many lines have been read. -/
structure Reader where
  rest : List (List UInt8)
  line : Nat
  deriving Repr

namespace Reader

/-- A reader at the start of a feed. -/
def ofBytes (bytes : List UInt8) : Reader := { rest := splitLines bytes, line := 0 }

/-- Reads `lines` up to the first non-blank one and gives its change set, or `none` when the
lines run out. -/
def nextFrom (line : Nat) : List (List UInt8) → Except FeedError (Option ChangeSet) × Reader
  | [] => (.ok none, { rest := [], line := line })
  | bytes :: rest =>
    match Text.decodeUtf8 bytes with
    | none => (.error (.io .invalidText), { rest := rest, line := line })
    | some chars =>
      let trimmed := Text.trimChars chars
      if trimmed.isEmpty then nextFrom (line + 1) rest
      else
        ((readLine (line + 1) (String.ofList trimmed)).map some,
          { rest := rest, line := line + 1 })

/-- The next change set of the feed, and the reader after it. -/
def next (reader : Reader) : Except FeedError (Option ChangeSet) × Reader :=
  nextFrom reader.line reader.rest

/-- A call that gives a change set has read at least one line. -/
theorem nextFrom_shortens {line : Nat} {lines : List (List UInt8)} {changeSet : ChangeSet}
    {after : Reader} (read : nextFrom line lines = (.ok (some changeSet), after)) :
    after.rest.length < lines.length := by
  induction lines generalizing line with
  | nil => simp [nextFrom] at read
  | cons bytes rest ih =>
    rw [nextFrom] at read
    split at read
    · simp at read
    · dsimp only at read
      split at read
      · exact Nat.lt_succ_of_lt (ih read)
      · obtain ⟨-, rfl⟩ := Prod.mk.inj read
        exact Nat.lt_succ_self _

/-- Pulls change sets until the feed ends or one is an error: the change sets read, and that
error. -/
def drain (reader : Reader) : List ChangeSet × Option FeedError :=
  match read : reader.next with
  | (.ok none, _) => ([], none)
  | (.error e, _) => ([], some e)
  | (.ok (some changeSet), after) =>
    have : after.rest.length < reader.rest.length := nextFrom_shortens read
    let (changeSets, stop) := after.drain
    (changeSet :: changeSets, stop)
termination_by reader.rest.length

end Reader

/-- Reads a feed: the change sets up to the first error, and that error. -/
def read (bytes : List UInt8) : List ChangeSet × Option FeedError :=
  (Reader.ofBytes bytes).drain

end Feed
end TreeHistory
