import TreeHistory.Cli.Args
import TreeHistory.Config.Basic
import TreeHistory.Store.File
import TreeHistory.Store.Query
import TreeHistory.Feed.Lines
import TreeHistory.Json.Forms
import TreeHistory.Date.Rfc3339
import TreeHistory.Config.Filter

/-!
# Running the command

`Cli.execute` runs a command line against a file system given as a `FileSystem` over any monad,
so the same steps run on real files and on a workspace held in memory. A command loads its
settings, reads the log filter `REVDEX_LOG`, opens the store in the storage directory, then runs
its subcommand; `index` writes back the store as the run left it. A failure ends the command with
exit code 2 for an indexing error that retrying cannot mend, and 1 otherwise.
-/

namespace TreeHistory
namespace Cli

/-- What a command needs from the file system, in the monad `m` it runs in. -/
structure FileSystem (m : Type → Type) where
  /-- Reads a whole file. A directory opens but cannot be read: `isADirectory`. -/
  readFile : String → m (Except OsError (List UInt8))
  /-- Replaces the contents of a file, creating it if needed. -/
  writeFile : String → List UInt8 → m (Except OsError Unit)
  /-- Creates a directory and the missing directories above it. -/
  createDirs : String → m (Except OsError Unit)
  /-- Reads standard input to its end. -/
  readInput : m (List UInt8)

/-- Why a command failed. -/
inductive Failure where
  | config (error : ConfigError)
  | index (error : IndexError)
  | store (error : StoreError)
  | path (error : PathError)
  /-- The feed file could not be opened. -/
  | feedOpen (path : String) (error : OsError)
  /-- The command refused its arguments. -/
  | refused (reason : String)
  deriving Repr

namespace Failure

/-- The text of a failure, after the program's name. -/
def message : Failure → String
  | .config error => error.message
  | .index error => error.message
  | .store error => error.message
  | .path error => error.message
  | .feedOpen file error => "open feed " ++ file ++ ": " ++ error.message
  | .refused reason => reason

/-- The exit code of a failure: 2 for an indexing error that retrying cannot mend, else 1. -/
def exitCode : Failure → Nat
  | .index error => if error.isFatal then 2 else 1
  | _ => 1

end Failure

/-- How a command ended. -/
inductive Result where
  /-- The arguments do not parse: the usage was shown as an error. -/
  | usage
  /-- Help was asked for: its lines were printed. -/
  | help (lines : List String)
  /-- The version was shown. -/
  | version
  /-- The command ran: the lines it printed, and its failure if it failed. -/
  | finished (lines : List Json) (failure : Option Failure)
  deriving Repr

/-- The exit code of a result. -/
def Result.exitCode : Result → Nat
  | .usage => 2
  | .help _ => 0
  | .version => 0
  | .finished _ (some failure) => failure.exitCode
  | .finished _ none => 0

/-- The name of the database file in the storage directory. -/
def databaseName : String := "revdex.db"

/-- The path of the database file of a storage directory. -/
def databasePath (dir : String) : String :=
  if dir.endsWith "/" then dir ++ databaseName else dir ++ "/" ++ databaseName

/-- The settings a configuration file gives. -/
def readConfig {m : Type → Type} [Monad m] (fs : FileSystem m) (path : String) :
    m (Except ConfigError Config) := do
  match ← fs.readFile path with
  | .error e => pure (.error (.read path e))
  | .ok bytes =>
    pure (match Text.decodeUtf8 bytes with
      | some chars => Config.ofToml (String.ofList chars)
      | none => .error (.read path .invalidText))

/-- The settings after the environment and the options, validated. -/
def settle (config : Config) (env : String → Option String) (invocation : Invocation) :
    Except ConfigError Config := do
  let (config, applied) := config.applyEnv env
  applied
  let config := { config with
    storageDir := invocation.storageDir.getD config.storageDir
    batchSize := invocation.batchSize.getD config.batchSize
    maxRetries := invocation.maxRetries.getD config.maxRetries }
  config.validate
  pure config

/-- The settings of a command. -/
def loadConfig {m : Type → Type} [Monad m] (fs : FileSystem m) (env : String → Option String)
    (invocation : Invocation) : m (Except ConfigError Config) := do
  let base ← match invocation.config with
    | some path => readConfig fs path
    | none => pure (.ok {})
  pure (base.bind fun config => settle config env invocation)

/-- The log filter `REVDEX_LOG` gives must read, unless it is blank. -/
def checkLogFilter (env : String → Option String) : Except ConfigError Unit :=
  match env "REVDEX_LOG" with
  | some filter =>
    if (Text.trim filter).isEmpty then .ok ()
    else match parseFilter filter with
      | .ok _ => .ok ()
      | .error e => .error (.invalid "REVDEX_LOG" e.message)
  | none => .ok ()

/-- Keeps a store in its file. -/
def saveStore {m : Type → Type} [Monad m] (fs : FileSystem m) (dir : String) (store : Store) :
    m (Except StoreError Unit) := do
  match ← fs.writeFile (databasePath dir) store.encode with
  | .ok () => pure (.ok ())
  | .error e => pure (.error (.io e))

/-- Opens the store of a storage directory, creating the directory and the database as needed,
and writes it back with the schema installed. -/
def openStore {m : Type → Type} [Monad m] (fs : FileSystem m) (dir : String) :
    m (Except StoreError Store) := do
  match ← fs.createDirs dir with
  | .error e => pure (.error (.io e))
  | .ok () =>
    let path := databasePath dir
    let stored ← match ← fs.readFile path with
      | .ok bytes => pure (Store.decode bytes)
      | .error .notFound => pure (.ok {})
      | .error .isADirectory => pure (.error (.sql ("unable to open database file: " ++ path)))
      | .error e => pure (.error (.io e))
    match stored.bind Store.openStored with
    | .error e => pure (.error e)
    | .ok store => do
      match ← saveStore fs dir store with
      | .error e => pure (.error e)
      | .ok () => pure (.ok store)

/-- The JSON form of a node window that the queries print: no name, and no end for a live
window. `openedAt` adds the date of the revision that opened it. -/
def nodeLine (record : NodeRecord) (openedAt : Option Json) : Json :=
  .obj ([("id", .int record.id), ("kind", .str record.kind.name)] ++
    (openedAt.map fun date => [("opened_at", date)]).getD [] ++
    [("parent", .int record.parent), ("path", .str record.path),
      ("predecessor", Predecessor.toJson? record.predecessor),
      ("rev_max", if record.isLive then .null else .int record.revMax),
      ("rev_min", .int record.revMin)])

/-- The date of the revision that opened a window, in RFC 3339 form, if the revision is stored
and its date can be written so. -/
def openedAt (store : Store) (record : NodeRecord) : Except StoreError Json := do
  match ← store.revision record.revMin with
  | some info => pure (((Date.format (info.dateMs * 1000000)).map Json.str).getD .null)
  | none => pure .null

/-- The revision a query names, which must be at least 1. -/
def queryRevision (revision : Int) : Except Failure Revnum :=
  if revision < 1 then .error (.refused "revision must be at least 1") else .ok revision

/-- Prints the node a path referred to at a revision. -/
def resolve (store : Store) (raw : String) (revision : Int) : Except Failure (List Json) := do
  let path ← (Path.normalize raw).mapError Failure.path
  let revision ← queryRevision revision
  let id ← (store.resolvePath path revision).mapError Failure.store
  let record ← (store.node id).mapError Failure.store
  pure [.obj [("node", (record.map fun r => nodeLine r none).getD .null), ("path", .str path),
    ("revision", .int revision)]]

/-- Prints the children of a node at a revision. -/
def children (store : Store) (parent : Int) (revision : Int) : Except Failure (List Json) := do
  if parent < 0 then throw (.refused "node ids are non-negative")
  let revision ← queryRevision revision
  let records ← (store.children parent revision).mapError Failure.store
  pure (records.map fun r => nodeLine r none)

/-- The lines of the windows of a path, each with the date of the revision that opened it,
up to the first window whose revision cannot be read, and that failure. -/
def datedLines (store : Store) : List NodeRecord → List Json × Option Failure
  | [] => ([], none)
  | record :: rest =>
    match openedAt store record with
    | .error e => ([], some (.store e))
    | .ok date =>
      let (lines, failure) := datedLines store rest
      (nodeLine record (some date) :: lines, failure)

/-- The lines of a query and its failure. -/
def report : Except Failure (List Json) → Result
  | .ok lines => .finished lines none
  | .error failure => .finished [] (some failure)

/-- Prints every window of a path with the date of the revision that opened it; a window whose
revision cannot be read ends the listing with that failure. -/
def history (store : Store) (raw : String) : Result :=
  match (Path.normalize raw).mapError Failure.path >>= fun path =>
      (store.pathHistory path).mapError Failure.store with
  | .error failure => .finished [] (some failure)
  | .ok records =>
    let (lines, failure) := datedLines store records
    .finished lines failure

/-- Indexes a feed into the store and writes the store back as the run left it. -/
def index {m : Type → Type} [Monad m] (fs : FileSystem m) (config : Config) (store : Store)
    (feed : String) : m Result := do
  match Indexer.ofStore store config.batchSize with
  | .error e => pure (.finished [] (some (.index e)))
  | .ok indexer =>
    let indexer := { indexer with maxRetries := config.maxRetries }
    let input ← if feed = "-" then Except.ok <$> fs.readInput else fs.readFile feed
    let read : Option (List ChangeSet × Option FeedError) := match input with
      | .ok bytes => some (Feed.read bytes)
      | .error .isADirectory => some ([], some (.io .isADirectory))
      | .error _ => none
    match read, input with
    | some (changeSets, stop), _ => do
      let (indexer, outcome) := indexer.run changeSets stop
      let _ ← saveStore fs config.storageDir indexer.store
      match outcome with
      | .ok summary => pure (.finished [summary.toJson] none)
      | .error e => pure (.finished [] (some (.index e)))
    | none, .error e => pure (.finished [] (some (.feedOpen feed e)))
    | none, .ok _ => pure (.finished [] none)

/-- Runs a subcommand on an open store. -/
def runCommand {m : Type → Type} [Monad m] (fs : FileSystem m) (config : Config) (store : Store) :
    Command → m Result
  | .index feed => index fs config store feed
  | .reset confirmed =>
    if confirmed then do
      match store.reset with
      | .error e => pure (.finished [] (some (.store e)))
      | .ok store =>
        match ← saveStore fs config.storageDir store with
        | .ok () => pure (.finished [] none)
        | .error e => pure (.finished [] (some (.store e)))
    else pure (.finished [] (some (.refused "reset deletes the whole index; pass --yes")))
  | .resolve path revision => pure (report (resolve store path revision))
  | .children parent revision => pure (report (children store parent revision))
  | .history path => pure (history store path)

/-- Runs a command line: the arguments without the program's name, and the environment. -/
def execute {m : Type → Type} [Monad m] (fs : FileSystem m) (env : String → Option String)
    (args : List String) : m Result := do
  match parse args with
  | .usage => pure .usage
  | .help topic => pure (.help (helpText topic))
  | .version => pure .version
  | .run invocation =>
    match (← loadConfig fs env invocation) >>= fun config =>
        (checkLogFilter env).map fun () => config with
    | .error e => pure (.finished [] (some (.config e)))
    | .ok config =>
      match ← openStore fs config.storageDir with
      | .error e => pure (.finished [] (some (.store e)))
      | .ok store => runCommand fs config store invocation.command

end Cli
end TreeHistory
