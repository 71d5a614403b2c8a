import TreeHistory.Config.Toml
import TreeHistory.Indexer.Basic
import TreeHistory.Store.Buffer
import TreeHistory.Text.Blank
import TreeHistory.Text.Quoted
import TreeHistory.Text.Decimal

/-!
# Indexer configuration

The settings come in layers: the defaults, a TOML file, the environment variables
`REVDEX_STORAGE_DIR`, `REVDEX_BATCH_SIZE` and `REVDEX_MAX_RETRIES`, then the command line;
`validate` checks the result as a whole. The file must match the settings exactly, or it is
unreadable (`ConfigError.parse`). The first environment variable that does not read stops its
layer, the variables before it staying applied.
-/

namespace TreeHistory

/-- How log lines are written. -/
inductive LogFormat where
  | text
  | json
  deriving DecidableEq, Repr

namespace LogFormat

/-- The name of a format in configuration files. -/
def name : LogFormat → String
  | .text => "text"
  | .json => "json"

/-- The format with a name; names are lowercase. -/
def ofName? : String → Option LogFormat
  | "text" => some .text
  | "json" => some .json
  | _ => none

end LogFormat

/-- The levels a log filter may name, compared in lowercase. -/
def logLevels : List String := ["trace", "debug", "info", "warn", "error", "off"]

/-- How the indexer logs. -/
structure LoggingConfig where
  level : String := "info"
  format : LogFormat := .text
  deriving DecidableEq, Repr

/-- The settings of the indexer. -/
structure Config where
  /-- The directory that holds the index database. -/
  storageDir : String := ".revdex"
  /-- Statements buffered per writer before they run. -/
  batchSize : Nat := Buffer.defaultCapacity
  /-- Attempts after the first for a revision that failed on store input or output. -/
  maxRetries : Nat := defaultMaxRetries
  logging : LoggingConfig := {}
  deriving DecidableEq, Repr

/-- Why the settings could not be had. -/
inductive ConfigError where
  /-- The configuration file could not be read. -/
  | read (path : String) (error : OsError)
  /-- The configuration file is not TOML, or does not match the settings. -/
  | parse
  /-- A setting has a value it may not have. -/
  | invalid (field message : String)
  deriving DecidableEq, Repr

namespace ConfigError

/-- The text of a configuration error. -/
def message : ConfigError → String
  | .read path error => "read " ++ path ++ ": " ++ error.message
  | .parse => "parse: not a valid configuration file"
  | .invalid field message => field ++ ": " ++ message

end ConfigError

/-- The largest machine-word size, the range of batch sizes given in the environment. -/
def wordMax : Nat := 18446744073709551615

/-- The largest 32-bit count, the range of retry counts. -/
def countMax : Nat := 4294967295

/-- The largest TOML integer, the range of batch sizes given in a file. -/
def tomlIntMax : Nat := 9223372036854775807

namespace LoggingConfig

/-- The text of a TOML value. -/
def text? : Toml.Value → Option String
  | .str s => some s
  | _ => none

/-- A format: its name as text, or a table holding only the name with an empty value. -/
def format? : Toml.Value → Option LogFormat
  | .str s => LogFormat.ofName? s
  | .table [(name, .table [])] => LogFormat.ofName? name
  | .table [(name, .arr [])] => LogFormat.ofName? name
  | _ => none

/-- Sets the field a key names. -/
def setField (logging : LoggingConfig) : String × Toml.Value → Option LoggingConfig
  | ("level", value) => (text? value).map fun level => { logging with level }
  | ("format", value) => (format? value).map fun format => { logging with format }
  | _ => none

/-- The logging settings of a table, or of an array giving the fields in order; more items
than fields are ignored. -/
def ofToml? : Toml.Value → Option LoggingConfig
  | .table entries => entries.foldlM setField {}
  | .arr [] => some {}
  | .arr [level] => (text? level).map fun level => { level }
  | .arr (level :: format :: _) => do
    let level ← text? level
    let format ← format? format
    pure { level, format }
  | _ => none

/-- The level must be one of `logLevels`, in any case. -/
def validate (logging : LoggingConfig) : Except ConfigError Unit :=
  if logLevels.contains logging.level.toLower then .ok ()
  else .error (.invalid "logging.level" ("unknown level " ++ Text.quote logging.level))

end LoggingConfig

namespace Config

/-- A non-negative TOML integer up to a limit. -/
def count? (limit : Nat) : Toml.Value → Option Nat
  | .int n => if 0 ≤ n ∧ n.toNat ≤ limit then some n.toNat else none
  | _ => none

/-- Sets the setting a top-level key names. -/
def setField (config : Config) : String × Toml.Value → Option Config
  | ("storage_dir", value) =>
    (LoggingConfig.text? value).map fun storageDir => { config with storageDir }
  | ("batch_size", value) =>
    (count? tomlIntMax value).map fun batchSize => { config with batchSize }
  | ("max_retries", value) =>
    (count? countMax value).map fun maxRetries => { config with maxRetries }
  | ("logging", value) => (LoggingConfig.ofToml? value).map fun logging => { config with logging }
  | _ => none

/-- The settings a TOML text gives over the defaults. -/
def ofToml (text : String) : Except ConfigError Config :=
  match (Toml.parse text).bind fun entries => entries.foldlM setField {} with
  | some config => .ok config
  | none => .error .parse

/-- The number an environment variable holds, or the error that names it. -/
def envCount (name : String) (limit : Nat) (raw : String) : Except ConfigError Nat :=
  match Text.readUnsigned limit (Text.trim raw) with
  | some n => .ok n
  | none => .error (.invalid name ("expected a non-negative integer, got " ++ Text.quote raw))

/-- Applies the environment variables in order, stopping at the first that does not read. The
settings come back as far as they were applied. -/
def applyEnv (config : Config) (lookup : String → Option String) :
    Config × Except ConfigError Unit :=
  let config := match lookup "REVDEX_STORAGE_DIR" with
    | some dir => if dir.isEmpty then config else { config with storageDir := dir }
    | none => config
  match (lookup "REVDEX_BATCH_SIZE").map (envCount "REVDEX_BATCH_SIZE" wordMax) with
  | some (.error e) => (config, .error e)
  | batch =>
    let config := match batch with
      | some (.ok batchSize) => { config with batchSize }
      | _ => config
    match (lookup "REVDEX_MAX_RETRIES").map (envCount "REVDEX_MAX_RETRIES" countMax) with
    | some (.error e) => (config, .error e)
    | some (.ok maxRetries) => ({ config with maxRetries }, .ok ())
    | none => (config, .ok ())

/-- Checks the settings as a whole: a batch holds at least one statement, the storage directory
is named, and the log level is known. -/
def validate (config : Config) : Except ConfigError Unit :=
  if config.batchSize = 0 then .error (.invalid "batch_size" "must be at least 1")
  else if config.storageDir.isEmpty then .error (.invalid "storage_dir" "must not be empty")
  else config.logging.validate

/-- The defaults read back from an empty file. -/
theorem ofToml_empty : ofToml "" = .ok {} := rfl

end Config
end TreeHistory
