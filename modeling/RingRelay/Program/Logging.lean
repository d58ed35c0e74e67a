import RingRelay.Config.Settings
import RingRelay.Environment
import RingRelay.Files.Tree
import RingRelay.Log.Filter
/- Setting up the log: where lines go and which events have one. -/
namespace RingRelay

/-- A log that has been set up. -/
structure Log where
  filter : Filter
  /-- Whether lines go to the standard error stream. -/
  console : Bool
  /-- The file to which lines go. -/
  file : Option Place
  /-- What was said while the filter was set up. -/
  notices : List String

namespace Log

/-- The log of a program that is to log nothing. -/
def silent : Log := ⟨⟨[]⟩, false, none, []⟩

/-- The lines that the events leave in the log. -/
def lines (log : Log) (events : List Event) : List String :=
  (events.filter log.filter.allows).map Event.line

/-- The lines that the events leave on the standard error stream. -/
def consoleLines (log : Log) (events : List Event) : List String :=
  if log.console then log.lines events else []

/-- The filter to use. A filter in the environment wins over the configured level; its faulty
    directives are left out with a notice, while a faulty level is an error. -/
def chooseFilter (env : Environment) (level : String) : Except String (Filter × List String) :=
  match Environment.telling? env.logFilter with
  | some text => .ok (Filter.readLenient text)
  | none =>
    match Filter.read level with
    | .ok filter => .ok (filter, [])
    | .error fault =>
      let name := Text.quoted level
      .error s!"invalid log level {name}: {fault.message}"

/-- The directory for log files: the configured one, or one among the temporary files. -/
def directory (env : Environment) (settings : LoggingSettings) : Path :=
  match settings.directory.map Text.trim with
  | none => Path.join env.temporaryDirectory (Utf8.encode "bytering")
  | some name =>
    if name.isEmpty then Path.join env.temporaryDirectory (Utf8.encode "bytering")
    else Utf8.encode name

/-- The name of the log file of a process. -/
def fileName (processId : String) : FileName := Utf8.encode s!"bytering.{processId}.log"

/-- Makes the log file of this process, unless there is one: the files afterwards, and its place. -/
def makeFile (env : Environment) (processId : String) (files : FileTree)
    (settings : LoggingSettings) : FileTree × Except String Place :=
  match files.makeDirectories (directory env settings) with
  | (files, .error error) =>
    let name := Path.display (directory env settings)
    (files, .error s!"create log dir {name} failed: {error.message}")
  | (files, .ok place) =>
    (files.touch (place ++ [fileName processId]), .ok (place ++ [fileName processId]))

/-- Sets up the log: the files afterwards, and the log or why there can be none. The log file is
    made before the filter is looked at. -/
def setUp (env : Environment) (processId : String) (files : FileTree) (settings : LoggingSettings) :
    FileTree × Except String Log :=
  if !settings.enabled then (files, .ok silent)
  else if !settings.console && !settings.file then
    (files, .error "logging disabled for both console and file")
  else
    let (files, file) :=
      if settings.file then
        let (files, place) := makeFile env processId files settings
        (files, some <$> place)
      else (files, .ok none)
    (files, do
      let file ← file
      let (filter, notices) ← chooseFilter env settings.level
      return { filter, console := settings.console, file, notices })

end Log

end RingRelay
