import TreeHistory.Cli.Run

/-!
# The `revdex` command

The program's entry point: it gathers the arguments, the environment and the real file system,
runs the command (`Cli.execute`), prints what it printed and its failure, and exits with its
code.
-/

namespace TreeHistory
namespace Cli

/-- The failure an error of the system stands for, by its kind and its error number, which
some calls report negated. -/
def osErrorOf (error : IO.Error) : OsError :=
  let code : Option Nat := match error with
    | .alreadyExists _ code _ => some code.toNat
    | .noFileOrDirectory _ code _ => some code.toNat
    | .inappropriateType _ code _ => some code.toNat
    | .otherError code _ => some code.toNat
    | .invalidArgument _ code _ => some code.toNat
    | .permissionDenied _ code _ => some code.toNat
    | .noSuchThing _ code _ => some code.toNat
    | _ => none
  let number := code.map fun n => if n > 2147483647 then 4294967296 - n else n
  match error, number with
  | .noFileOrDirectory .., _ => .notFound
  | .alreadyExists .., _ => .alreadyExists
  | _, some 2 => .notFound
  | _, some 17 => .alreadyExists
  | _, some 20 => .notADirectory
  | _, some 21 => .isADirectory
  | _, _ => .other (toString error)

/-- Runs a file operation, turning the system's error into a failure. -/
def attempt {α : Type} (action : IO α) : IO (Except OsError α) := do
  try
    let value ← action
    pure (.ok value)
  catch error => pure (.error (osErrorOf error))

/-- Whether a path is a directory: it opens, but reading it fails as reading a directory
does. -/
def isDirectory (path : String) : IO Bool := do
  try
    let handle ← IO.FS.Handle.mk path .read
    let _ ← handle.read 1
    pure false
  catch error => pure (osErrorOf error == .isADirectory)

/-- The parent of a path: `/` for a path just below the root, empty for a single part. -/
def parentOf (path : String) : String :=
  let reversed := path.toList.reverse.dropWhile (· = '/')
  let rest := (reversed.dropWhile (· ≠ '/')).dropWhile (· = '/')
  if rest.isEmpty then (if path.startsWith "/" then "/" else "") else String.ofList rest.reverse

/-- Creates a directory and its missing parents, accepting a part that is a directory. -/
partial def createDirs (path : String) : IO Unit := do
  if path.isEmpty then return
  try IO.FS.createDir path
  catch error =>
    match osErrorOf error with
    | .notFound =>
      createDirs (parentOf path)
      try IO.FS.createDir path
      catch again => unless ← isDirectory path do throw again
    | _ => unless ← isDirectory path do throw error

/-- Reads a stream to its end. -/
partial def readToEnd (stream : IO.FS.Stream) (acc : ByteArray) : IO ByteArray := do
  let chunk ← stream.read 65536
  if chunk.isEmpty then pure acc else readToEnd stream (acc ++ chunk)

/-- The real file system and standard input. -/
def systemFiles : FileSystem IO where
  readFile path := attempt do return (← IO.FS.readBinFile path).toList
  writeFile path bytes := attempt (IO.FS.writeBinFile path (ByteArray.mk bytes.toArray))
  createDirs path := attempt (createDirs path)
  readInput := do return (← readToEnd (← IO.getStdin) ByteArray.empty).toList

/-- The environment variables the settings and the log filter read. -/
def settingNames : List String :=
  ["REVDEX_STORAGE_DIR", "REVDEX_BATCH_SIZE", "REVDEX_MAX_RETRIES", "REVDEX_LOG"]

end Cli
end TreeHistory

open TreeHistory in
/-- Runs the `revdex` command. -/
def main (args : List String) : IO UInt32 := do
  let values ← Cli.settingNames.mapM fun name => do return (name, ← IO.getEnv name)
  let env := fun name => ((values.find? (·.1 == name)).map (·.2)).getD none
  let result ← Cli.execute Cli.systemFiles env args
  match result with
  | .usage => IO.eprintln ("\n".intercalate Cli.commandHelp)
  | .help lines => for line in lines do IO.println line
  | .version => IO.println Cli.versionText
  | .finished lines failure =>
    for line in lines do
      IO.println line.render
    if let some failure := failure then
      IO.eprintln ("revdex: " ++ failure.message)
  return result.exitCode.toUInt32
