import TreeHistory.Text.Decimal

/-!
# Command-line arguments

`Cli.parse` reads the arguments of the `revdex` command: options (`--config`, `--storage-dir`,
`--batch-size`), then a subcommand (`index`, `reset`, `resolve`, `children`, `history`, `help`)
with its own options and positional arguments. The three options may also follow the
subcommand, where a value given wins over one given before it. An option's value is the text
after `=` or the next argument, which must not look like an option, so a negative number is given
after `=` or `--`. Arguments are taken from left to right, and the first request for help or the
version, or the first mistake, decides the outcome.
-/

namespace TreeHistory
namespace Cli

/-- What the command is to do. -/
inductive Command where
  /-- Index a feed of change sets, read from a file or, for `-`, from standard input. -/
  | index (feed : String)
  /-- Delete every indexed row, if confirmed. -/
  | reset (confirmed : Bool)
  /-- Print the node a path referred to at a revision. -/
  | resolve (path : String) (revision : Int)
  /-- List the children of a node at a revision. -/
  | children (parent : Int) (revision : Int)
  /-- Print every window of a path. -/
  | history (path : String)
  deriving DecidableEq, Repr

/-- The options that every level of the command line accepts. -/
structure Globals where
  config : Option String := none
  storageDir : Option String := none
  batchSize : Option Nat := none
  deriving DecidableEq, Repr

/-- A command with the settings its command line gives. -/
structure Invocation where
  config : Option String := none
  storageDir : Option String := none
  batchSize : Option Nat := none
  /-- The retry count, which only `index` takes. -/
  maxRetries : Option Nat := none
  command : Command
  deriving DecidableEq, Repr

/-- What the arguments ask for. -/
inductive Request where
  | run (invocation : Invocation)
  /-- Help was asked for, on the whole command or on one subcommand: it is shown and the
  command succeeds. -/
  | help (topic : Option String)
  /-- The version was asked for. -/
  | version
  /-- The arguments are not a valid command line: the usage is shown and the command fails. -/
  | usage
  deriving DecidableEq, Repr

/-- The name and version the command reports. -/
def versionText : String := "revdex 0.1.0"

/-- The options every level of the command line accepts, as help lists them. -/
def globalOptionLines : List String :=
  ["      --config <CONFIG>            TOML configuration file",
   "      --storage-dir <STORAGE_DIR>  Directory holding revdex.db",
   "      --batch-size <BATCH_SIZE>    Rows buffered per writer before a flush",
   "  -h, --help                       Print help"]

/-- The help of the whole command. -/
def commandHelp : List String :=
  ["revdex: temporal index of a versioned tree's revision history", "",
   "Usage: revdex [OPTIONS] <COMMAND>", "",
   "Commands:",
   "  index     Index a JSON-lines change feed (\"-\" reads stdin)",
   "  reset     Delete every indexed row",
   "  resolve   Print the node a path referred to at a revision",
   "  children  List the children of a node at a revision (0 is the root)",
   "  history   Print every window of a path with the revisions that opened them",
   "  help      Print this message or the help of the given subcommand(s)", "",
   "Options:"] ++ globalOptionLines ++
  ["  -V, --version                    Print version"]

/-- The help of a subcommand: what it does, its usage, its arguments and its options. -/
def subcommandHelp (about usage : String) (arguments options : List String) : List String :=
  [about, "", "Usage: revdex " ++ usage, ""] ++
    (if arguments.isEmpty then [] else "Arguments:" :: arguments ++ [""]) ++
    "Options:" :: options ++ globalOptionLines

/-- The help shown for a topic: the whole command, or one subcommand. -/
def helpText : Option String → List String
  | some "index" =>
    subcommandHelp "Index a JSON-lines change feed (\"-\" reads stdin)"
      "index [OPTIONS] --feed <FEED>" []
      ["      --feed <FEED>                ",
       "      --max-retries <MAX_RETRIES>  Retries for a revision that failed on store I/O"]
  | some "reset" =>
    subcommandHelp "Delete every indexed row" "reset [OPTIONS]" []
      ["      --yes                        "]
  | some "resolve" =>
    subcommandHelp "Print the node a path referred to at a revision"
      "resolve [OPTIONS] <PATH> <REVISION>" ["  <PATH>      ", "  <REVISION>  "] []
  | some "children" =>
    subcommandHelp "List the children of a node at a revision (0 is the root)"
      "children [OPTIONS] <PARENT> <REVISION>" ["  <PARENT>    ", "  <REVISION>  "] []
  | some "history" =>
    subcommandHelp "Print every window of a path with the revisions that opened them"
      "history [OPTIONS] <PATH>" ["  <PATH>  "] []
  | some "help" =>
    ["Print this message or the help of the given subcommand(s)", "",
     "Usage: revdex help [COMMAND]...", "",
     "Arguments:",
     "  [COMMAND]...  Print help for the subcommand(s)"]
  | _ => commandHelp

/-- The largest machine-word count. -/
def wordLimit : Nat := 18446744073709551615

/-- The largest 32-bit count. -/
def countLimit : Nat := 4294967295

/-- The subcommands, `help` included. -/
def commandNames : List String := ["index", "reset", "resolve", "children", "history", "help"]

/-- Whether an argument reads as an option rather than a value. -/
def looksLikeOption (arg : String) : Bool :=
  arg.startsWith "-" && arg != "-"

/-- A long option's name and the value attached with `=`. -/
def splitLong (body : String) : String × Option String :=
  match body.splitOn "=" with
  | [name] => (name, none)
  | name :: rest => (name, some ("=".intercalate rest))
  | [] => (body, none)

/-- The value of an option: the attached one, or the next argument if it is not an option.
Gives the value and the arguments after it. -/
def takeValue (attached : Option String) (rest : List String) : Option (String × List String) :=
  match attached, rest with
  | some value, _ => some (value, rest)
  | none, next :: more => if looksLikeOption next then none else some (next, more)
  | none, [] => none

/-- A path value, which may not be empty. -/
def pathValue (value : String) : Option String :=
  if value.isEmpty then none else some value

/-- The long names of the options every level accepts. -/
def globalNames : List String := ["config", "storage-dir", "batch-size"]

/-- Sets a global option given once at this level; `none` for a repeated option or a value that
does not read. The outer `none` means the name is not a global option. -/
def setGlobal (globals : Globals) (name value : String) : Option (Option Globals) :=
  match name with
  | "config" => some (match globals.config with
    | some _ => none
    | none => (pathValue value).map fun path => { globals with config := some path })
  | "storage-dir" => some (match globals.storageDir with
    | some _ => none
    | none => (pathValue value).map fun path => { globals with storageDir := some path })
  | "batch-size" => some (match globals.batchSize with
    | some _ => none
    | none => (Text.readUnsigned wordLimit value).map fun n => { globals with batchSize := some n })
  | _ => none

/-- The first character of a cluster of short options after its dash. -/
def shortOption (arg : String) : Option Char :=
  (arg.toList.drop 1).head?

/-- What a subcommand has read so far. -/
structure Level where
  globals : Globals := {}
  positionals : List String := []
  feed : Option String := none
  maxRetries : Option Nat := none
  confirmed : Bool := false
  /-- Whether `--` was passed: every argument after it is positional. -/
  escaped : Bool := false
  deriving DecidableEq, Repr

/-- How many positional arguments a subcommand takes. -/
def arity : String → Nat
  | "resolve" => 2
  | "children" => 2
  | "history" => 1
  | _ => 0

/-- Whether the positional argument at an index must be a number. -/
def isNumeric (command : String) (index : Nat) : Bool :=
  match command with
  | "resolve" => index = 1
  | "children" => true
  | _ => false

/-- Adds a positional argument, if the subcommand takes one more and it reads. -/
def addPositional (command : String) (level : Level) (arg : String) : Option Level :=
  let index := level.positionals.length
  if index < arity command then
    if isNumeric command index && (Text.readSigned arg).isNone then none
    else some { level with positionals := level.positionals ++ [arg] }
  else none

/-- Sets an option of a subcommand's own, given once. -/
def setLocal (command : String) (level : Level) (name : String) (attached : Option String)
    (rest : List String) : Option (Level × List String) :=
  match command, name with
  | "index", "feed" => do
    let (value, rest) ← takeValue attached rest
    let path ← pathValue value
    if level.feed.isSome then none else some ({ level with feed := some path }, rest)
  | "index", "max-retries" => do
    let (value, rest) ← takeValue attached rest
    let n ← Text.readSigned value
    if n < 0 ∨ n > countLimit ∨ level.maxRetries.isSome then none
    else some ({ level with maxRetries := some n.toNat }, rest)
  | "reset", "yes" =>
    if attached.isSome || level.confirmed then none
    else some ({ level with confirmed := true }, rest)
  | _, _ => none

/-- The command a finished subcommand stands for, if every required argument came. -/
def finish (command : String) (level : Level) : Option Command :=
  match command, level.positionals with
  | "index", [] => level.feed.map Command.index
  | "reset", [] => some (.reset level.confirmed)
  | "resolve", [path, revision] => (Text.readSigned revision).map (.resolve path)
  | "children", [parent, revision] => do
    let parent ← Text.readSigned parent
    let revision ← Text.readSigned revision
    pure (.children parent revision)
  | "history", [path] => some (.history path)
  | _, _ => none

/-- An option value given after the subcommand wins over one given before it. -/
def Globals.override (outer inner : Globals) : Globals :=
  { config := inner.config.or outer.config, storageDir := inner.storageDir.or outer.storageDir,
    batchSize := inner.batchSize.or outer.batchSize }

/-- Reads the arguments after a subcommand's name; `fuel` bounds the steps, one per argument
at least. -/
def subcommand (command : String) (outer : Globals) : Nat → Level → List String → Request
  | 0, _, _ => .usage
  | _ + 1, level, [] =>
    match finish command level with
    | some cmd =>
      let globals := outer.override level.globals
      .run { config := globals.config, storageDir := globals.storageDir,
             batchSize := globals.batchSize, maxRetries := level.maxRetries, command := cmd }
    | none => .usage
  | fuel + 1, level, arg :: rest =>
    if level.escaped then
      match addPositional command level arg with
      | some level => subcommand command outer fuel level rest
      | none => .usage
    else if arg = "--" then subcommand command outer fuel { level with escaped := true } rest
    else if arg.startsWith "--" then
      let (name, attached) := splitLong (arg.drop 2).copy
      if name = "help" then (if attached.isSome then .usage else .help (some command))
      else if globalNames.contains name then
          match takeValue attached rest with
          | some (value, rest) =>
            match setGlobal level.globals name value with
            | some (some globals) => subcommand command outer fuel { level with globals } rest
            | _ => .usage
          | none => .usage
      else
        match setLocal command level name attached rest with
        | some (level, rest) => subcommand command outer fuel level rest
        | none => .usage
    else if looksLikeOption arg then
      if shortOption arg = some 'h' then .help (some command) else .usage
    else
      match addPositional command level arg with
      | some level => subcommand command outer fuel level rest
      | none => .usage

/-- Reads the arguments before the subcommand; `fuel` bounds the steps, one per argument at
least. -/
def topLevel : Nat → Globals → List String → Request
  | 0, _, _ => .usage
  | _ + 1, _, [] => .usage
  | fuel + 1, globals, arg :: rest =>
    if arg = "help" then
      match rest with
      | [] => .help none
      | [name] => if commandNames.contains name then .help (some name) else .usage
      | _ => .usage
    else if commandNames.contains arg then subcommand arg globals fuel {} rest
    else if arg = "--" then .usage
    else if arg.startsWith "--" then
      let (name, attached) := splitLong (arg.drop 2).copy
      if name = "help" then (if attached.isSome then .usage else .help none)
      else if name = "version" then (if attached.isSome then .usage else .version)
      else match takeValue attached rest with
        | some (value, rest) =>
          match setGlobal globals name value with
          | some (some globals) => topLevel fuel globals rest
          | _ => .usage
        | none => .usage
    else if looksLikeOption arg then
      match shortOption arg with
      | some 'h' => .help none
      | some 'V' => .version
      | _ => .usage
    else .usage

/-- Reads a command line, the program's name excluded. -/
def parse (args : List String) : Request :=
  topLevel (args.length + 1) {} args

theorem parse_resolve :
    parse ["resolve", "/a", "3"] = .run { command := .resolve "/a" 3 } := by decide +kernel

theorem parse_negative_parent : parse ["children", "-1", "2"] = .usage := by decide +kernel

theorem parse_escaped_parent :
    parse ["children", "--", "-1", "2"] = .run { command := .children (-1) 2 } := rfl

end Cli
end TreeHistory
