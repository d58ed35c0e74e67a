import RingRelay.Command.Arguments
import RingRelay.Config.Load
import RingRelay.Program.Failure
import RingRelay.Program.Logging
import RingRelay.Program.Streams
import RingRelay.Relay.Ending
/- The program as a whole: from arguments, environment, files and streams to an exit code, the
   standard streams and the files afterwards.

   One thing is set up after another, and the first that fails ends the program: the settings, the
   log, the input, the output. Then the relay runs. It need not come to an end, so a run is given a
   number of rounds and has a report if they are enough (`Program.run`). What a run does in the end
   is what it does with enough rounds (`Program.EndsWith`). -/
namespace RingRelay

/-- What the program finds when it starts. -/
structure Host where
  environment : Environment
  files : FileTree
  /-- The largest block of memory that can be had, in bytes. -/
  memory : Nat
  /-- The number of the process, as a text. -/
  processId : String

/-- What the program leaves behind. -/
structure Report where
  exitCode : Nat
  stdout : Bytes
  /-- The lines of the standard error stream. -/
  stderr : List String
  files : FileTree

namespace Program

/-- The settings of a run. What the arguments give wins, but does not mend settings that cannot be
    used without it. -/
def loadSettings (host : Host) (args : Arguments) : Except Failure Settings := do
  let loaded := match args.config with
    | some path => Config.loadFrom host.environment host.files path
    | none => Config.loadUsual host.environment host.files
  let settings ← match loaded with
    | .ok settings => pure settings
    | .error error => .error (.config error.report)
  let capacity ← match args.capacity with
    | none => pure settings.buffer.capacity
    | some 0 => .error (.config "--capacity must be greater than zero")
    | some (n + 1) => pure (n + 1)
  return { settings with
    buffer := { capacity }
    relay := { flushOnDrain := settings.relay.flushOnDrain && !args.noFlush } }

/-- Where the bytes come from: the standard input, or a place among the files. -/
abbrev Input := Option Place

/-- Where the bytes go to: the standard output, or a place among the files. -/
abbrev Output := Option Place

def openInput (files : FileTree) : Option Path → Except IoError Input
  | none => .ok none
  | some path => do return some (← files.openToRead path)

def openOutput (files : FileTree) : Option Path → Except IoError (FileTree × Output)
  | none => .ok (files, none)
  | some path => do
    let (files, place) ← files.create path
    return (files, some place)

variable {ρ ω : Type}

/-- The source that an input is. What it holds is looked up late: an output that is the same file
    has been emptied by then. -/
def source (streams : Streams ρ ω) (files : FileTree) : Input → ρ
  | none => streams.stdin
  | some place => streams.opened place ((files.get? place).getD (.file []))

/-- The sink that an output is. -/
def sink (streams : Streams ρ ω) (files : FileTree) : Output → ω
  | none => streams.stdout
  | some place => streams.created place ((files.get? place).getD (.file []))

/-- The files with the bytes that have come through to the output. They go over what its file has,
    from the first byte on. -/
def store (files : FileTree) (bytes : Bytes) : Output → FileTree
  | none => files
  | some place => files.overwrite place bytes

/-- The files with the lines of the log, which go behind what its file had. -/
def storeLog (files : FileTree) (log : Log) (events : List Event) : FileTree :=
  match log.file with
  | none => files
  | some place =>
    files.append place ((log.lines events).flatMap fun line => Utf8.encode (line ++ "\n"))

/-- The report of a run that fails before there is a log. -/
def failEarly (files : FileTree) (failure : Failure) : Report :=
  { exitCode := failure.exitCode, stdout := [], stderr := [failure.message], files }

/-- The report of a run that comes to its end, with the events of the run. -/
def close (log : Log) (files : FileTree) (stdout : Bytes) (events : List Event)
    (failure : Option Failure) : Report :=
  { exitCode := (failure.map Failure.exitCode).getD 0
    stdout
    stderr := log.notices ++ log.consoleLines events ++ (failure.map Failure.message).toList
    files := storeLog files log events }

/-- The report of a run whose relay is over. -/
def conclude (streams : Streams ρ ω) (settings : Settings) (log : Log) (files : FileTree)
    (output : Output) (pumped : Relay.Pumped ρ ω) : Report :=
  let events := .relayStarting settings.buffer.capacity settings.relay :: pumped.events.toList
  let bytes := streams.written pumped.sink
  let after := store files bytes output
  let stdout := if output.isNone then bytes else []
  match pumped.result with
  | .ok stats => close log after stdout (events ++ [.relayed stats]) none
  | .error error => close log after stdout events (some (.relay error))

/-- Relays the input to the output. -/
def relay (streams : Streams ρ ω) (host : Host) (settings : Settings) (log : Log)
    (files : FileTree) (input : Input) (output : Output) (rounds : Nat) : Option Report :=
  (Relay.pumpWithin streams.reader streams.writer settings.relay host.memory
    settings.buffer.capacity (source streams files input) (sink streams files output) rounds).map
      (conclude streams settings log files output)

/-- Opens the input and then the output, and relays. -/
def relayFiles (streams : Streams ρ ω) (host : Host) (settings : Settings) (log : Log)
    (files : FileTree) (args : Arguments) (rounds : Nat) : Option Report :=
  match openInput files args.input with
  | .error error => some (close log files [] [] (some (.io error)))
  | .ok input =>
    match openOutput files args.output with
    | .error error => some (close log files [] [] (some (.io error)))
    | .ok (files, output) => relay streams host settings log files input output rounds

/-- Runs the program with arguments that have been understood. -/
def runWith (streams : Streams ρ ω) (host : Host) (args : Arguments) (rounds : Nat) :
    Option Report :=
  match loadSettings host args with
  | .error failure => some (failEarly host.files failure)
  | .ok settings =>
    match Log.setUp host.environment host.processId host.files settings.logging with
    | (files, .error text) => some (failEarly files (.logging text))
    | (files, .ok log) => relayFiles streams host settings log files args rounds

/-- The report of a run that only prints a text. -/
def answer (host : Host) (text : String) : Report :=
  { exitCode := 0, stdout := Utf8.encode text, stderr := [], files := host.files }

/-- Runs the program, with at most so many rounds of its relay. There is no report if the relay
    still runs then. -/
def run (streams : Streams ρ ω) (host : Host) (words : List Bytes) (rounds : Nat) :
    Option Report :=
  match Arguments.parse words with
  | .ok args => runWith streams host args rounds
  | .error .help => some (answer host Arguments.helpText)
  | .error .version => some (answer host Arguments.versionText)
  | .error stop =>
    some { exitCode := stop.exitCode, stdout := [], stderr := [s!"error: {stop.message}"],
           files := host.files }

/-- A run of the program comes to its end with the report. -/
def EndsWith (streams : Streams ρ ω) (host : Host) (words : List Bytes) (report : Report) : Prop :=
  ∃ rounds, run streams host words rounds = some report

end Program

end RingRelay
