import TreeHistory.Cli.Run

/-!
# A workspace in memory

A `Workspace` is a directory tree held in memory, with standard input, on which commands run as
they would on real files. Paths are read relative to the working directory; opening a path walks
its parents, failing with `notFound`, `notADirectory` or `isADirectory` as the system would.
-/

namespace TreeHistory
namespace Cli

/-- What a path of the workspace holds. -/
inductive Entry where
  | dir
  | file (bytes : List UInt8)
  deriving DecidableEq, Repr

/-- Files and directories by their parts, and standard input. -/
structure Workspace where
  entries : List (List String × Entry) := []
  input : List UInt8 := []
  deriving Repr

namespace Workspace

/-- The parts of a path. -/
def parts (path : String) : List String :=
  let start := if path.startsWith "/" then ["/"] else []
  (path.splitOn "/").foldl (fun acc part =>
    if part = "" ∨ part = "." then acc
    else if part = ".." then acc.dropLast
    else acc ++ [part]) start

/-- What is at a path, by its parts; the working directory is a directory. -/
def entry? (ws : Workspace) (key : List String) : Option Entry :=
  if key.isEmpty then some .dir
  else (ws.entries.find? (·.1 == key)).map (·.2)

/-- Sets what is at a path. -/
def set (ws : Workspace) (key : List String) (entry : Entry) : Workspace :=
  { ws with entries := (ws.entries.filter (·.1 != key)) ++ [(key, entry)] }

/-- What is at a path whose parents are all directories. -/
def locate (ws : Workspace) (key : List String) : Except OsError (Option Entry) :=
  let parents := (List.range key.length).map key.take
  match parents.find? (fun p => ws.entry? p != some .dir) with
  | some p => if (ws.entry? p).isNone then .error .notFound else .error .notADirectory
  | none => .ok (ws.entry? key)

/-- Reads a file. -/
def read (ws : Workspace) (path : String) : Except OsError (List UInt8) :=
  match ws.locate (parts path) with
  | .ok (some (.file bytes)) => .ok bytes
  | .ok (some .dir) => .error .isADirectory
  | .ok none => .error .notFound
  | .error e => .error e

/-- Writes a file whose parents exist. -/
def write (ws : Workspace) (path : String) (bytes : List UInt8) : Except OsError Workspace :=
  let key := parts path
  match ws.locate key with
  | .ok (some .dir) => .error .isADirectory
  | .ok _ => .ok (ws.set key (.file bytes))
  | .error e => .error e

/-- Creates a directory and its missing parents. -/
def makeDirs (ws : Workspace) (path : String) : Except OsError Workspace :=
  let key := parts path
  ((List.range key.length).map (fun i => key.take (i + 1))).foldlM (fun ws ancestor =>
    match ws.entry? ancestor with
    | some .dir => .ok ws
    | some (.file _) =>
      .error (if ancestor.length = key.length then .alreadyExists else .notADirectory)
    | none => .ok (ws.set ancestor .dir)) ws

/-- Puts a file in place, creating its parent directories. -/
def put (ws : Workspace) (path : String) (bytes : List UInt8) : Workspace :=
  let key := parts path
  let ws := ((List.range (key.length - 1)).map (fun i => key.take (i + 1))).foldl
    (fun ws ancestor => if ws.entry? ancestor = none then ws.set ancestor .dir else ws) ws
  ws.set key (.file bytes)

/-- Runs a file-system step, keeping the workspace unchanged when it fails. -/
def step (change : Workspace → Except OsError Workspace) :
    StateM Workspace (Except OsError Unit) :=
  modifyGet fun ws => match change ws with
    | .ok ws => (.ok (), ws)
    | .error e => (.error e, ws)

/-- The workspace as the file system of a command. -/
def fileSystem : FileSystem (StateM Workspace) where
  readFile path := do return (← get).read path
  writeFile path bytes := step fun ws => ws.write path bytes
  createDirs path := step fun ws => ws.makeDirs path
  readInput := do return (← get).input

end Workspace
end Cli
end TreeHistory
