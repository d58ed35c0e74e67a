import RingRelay.Config.Decode
import RingRelay.Environment
import RingRelay.Files.Tree
import RingRelay.Text.Decimal
import RingRelay.Toml.Document
/- Where settings come from: one file, and over it the environment.

   The file is a given one or, without that, the first that exists of the file in the home directory
   and the one in the working directory; if neither does, the settings are the defaults. -/
namespace RingRelay

inductive ConfigError
  | noHome
  | unreadable (path : Path) (cause : IoError)
  | malformed (path : Path)
  | badCapacity (value : String) (fault : Text.NumberFault)
  | zeroCapacity
  deriving DecidableEq, Repr

namespace ConfigError

/-- The text of the error itself. -/
def message : ConfigError → String
  | noHome => "Cannot determine home directory"
  | unreadable path _ =>
    let name := Path.display path
    s!"read config {name}"
  | malformed path =>
    let name := Path.display path
    s!"parse config {name}"
  | badCapacity value _ => s!"invalid BYTERING_CAPACITY: {value}"
  | zeroCapacity => "buffer.capacity must be greater than zero"

/-- The texts of the errors behind this one. -/
def causes : ConfigError → List String
  | unreadable _ cause => [cause.message]
  | badCapacity _ fault => [fault.message]
  | _ => []

/-- The error with the errors behind it, on one line. -/
def report (error : ConfigError) : String :=
  String.intercalate ": " (error.message :: error.causes)

end ConfigError

namespace Config

/-- The directory with the data of the program, in the home directory. -/
def dataDirectory (env : Environment) : Except ConfigError Path :=
  match env.homeDirectory? with
  | none => .error .noHome
  | some home => .ok (Path.join (Utf8.encode home) (Utf8.encode ".bytering"))

/-- The settings that a file gives. -/
def readFile (tree : FileTree) (path : Path) : Except ConfigError Settings :=
  match tree.readText path with
  | .error cause => .error (.unreadable path cause)
  | .ok text =>
    match Toml.parse text with
    | none => .error (.malformed path)
    | some table =>
      match Settings.decode table with
      | .error _ => .error (.malformed path)
      | .ok settings => .ok settings

/-- The settings with what the environment says about them. Blank variables say nothing. -/
def applyEnvironment (env : Environment) (settings : Settings) : Except ConfigError Settings := do
  let capacity ← match Environment.telling? env.capacity with
    | none => .ok settings.buffer.capacity
    | some value =>
      match Text.readSize (Text.trimChars value.toList) with
      | .ok capacity => .ok capacity
      | .error fault => .error (.badCapacity value fault)
  let level := (Environment.telling? env.logLevel).getD settings.logging.level
  return { settings with buffer := { capacity }, logging := { settings.logging with level } }

/-- Settings that can be used. -/
def validate (settings : Settings) : Except ConfigError Settings :=
  if settings.buffer.capacity = 0 then .error .zeroCapacity else .ok settings

/-- The settings of a given file, and of no other. -/
def loadFrom (env : Environment) (tree : FileTree) (path : Path) : Except ConfigError Settings := do
  validate (← applyEnvironment env (← readFile tree path))

/-- The file of the settings in the working directory. -/
def localFile : Path := Utf8.encode "bytering.toml"

/-- The file of the settings in the home directory. -/
def userFile (env : Environment) : Except ConfigError Path := do
  return Path.join (← dataDirectory env) (Utf8.encode "config.toml")

/-- The settings of the first of the usual files that exists. -/
def readUsual (env : Environment) (tree : FileTree) : Except ConfigError Settings := do
  let userFile ← userFile env
  if tree.has userFile then readFile tree userFile
  else if tree.has localFile then readFile tree localFile
  else return {}

/-- The settings from the usual places. -/
def loadUsual (env : Environment) (tree : FileTree) : Except ConfigError Settings := do
  validate (← applyEnvironment env (← readUsual env tree))

end Config

end RingRelay
