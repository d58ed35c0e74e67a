import RingRelay.Program.Run
/- The command line. It shows the program the part of the machine that a run can look at, and
   carries out what the report says; what there is to decide is decided in `Program`. -/
namespace RingRelay.Machine

/-- The path from the root to a place. -/
def name (place : Place) : String := "/" ++ String.intercalate "/" (place.map Path.display)

/-- What the machine has at a place. Only what it does not know of is missing; whatever else keeps it
    from being read bars it. -/
def entryAt (place : Place) : IO (Option Entry) := do
  if name place = "/dev/null" then return some .nullDevice
  if name place = "/dev/full" then return some .fullDevice
  try
    return some (.file (← IO.FS.readBinFile (name place)).toList)
  catch
    | .noFileOrDirectory .. => return none
    | .inappropriateType .. => return some .directory
    | .permissionDenied .. => return some (.barred (.system .permissionDenied))
    | error => return some (.barred (.described .other error.toString))

/-- The tree with what the machine has on the way along a path. -/
def look (tree : FileTree) (path : Path) : IO FileTree := do
  let mut tree := tree
  let mut place := tree.origin path
  for piece in Path.pieces path do
    unless piece.isEmpty || piece == FileTree.dot do
      place := if piece = FileTree.dotDot then place.dropLast else place ++ [piece]
      if (tree.get? place).isNone then
        if let some entry ← entryAt place then
          tree := tree.put place entry
  return tree

/-- The tree with what the machine has on the way along several paths. -/
def lookAll (tree : FileTree) (paths : List Path) : IO FileTree := paths.foldlM look tree

/-- The working directory and the way to it. -/
def startingTree : IO FileTree := do
  let path := Utf8.encode (← IO.currentDir).toString
  look ⟨[], (Path.pieces path).filter (!·.isEmpty)⟩ path

def environment : IO Environment := do
  let get (key : String) : IO (Option Bytes) := do
    return (← IO.getEnv key).map Utf8.encode
  return {
    home := ← get "HOME"
    userProfile := ← get "USERPROFILE"
    capacity := ← get "BYTERING_CAPACITY"
    logLevel := ← get "BYTERING_LOG_LEVEL"
    logFilter := ← get "RUST_LOG"
    temporary := ← get "TMPDIR" }

/-- The number of this process, which is the first word of its status line. -/
def processId : IO String := do
  return String.ofList ((← IO.FS.readFile "/proc/self/stat").toList.takeWhile Char.isDigit)

partial def readToEnd (stream : IO.FS.Stream) (before : ByteArray) : IO ByteArray := do
  let next ← stream.read 65536
  if next.isEmpty then return before else readToEnd stream (before ++ next)

/-- The paths of the files with settings. -/
def settingsPaths (env : Environment) (args : Arguments) : List Path :=
  match args.config with
  | some path => [path]
  | none => Config.localFile :: (Config.userFile env).toOption.toList

/-- The paths of the files that a run with these settings uses. -/
def relayPaths (env : Environment) (args : Arguments) (settings : Settings) : List Path :=
  args.input.toList ++ args.output.toList ++ [Log.directory env settings.logging]

/-- What a run with these arguments finds. -/
def host (args : List Bytes) : IO Host := do
  let env ← environment
  let found : Host :=
    { environment := env
      files := ← startingTree
      memory := 0x7fffffffffff
      processId := ← processId }
  let .ok args := Arguments.parse args | return found
  let found := { found with files := ← lookAll found.files (settingsPaths env args) }
  let .ok settings := Program.loadSettings found args | return found
  let files ← lookAll found.files (relayPaths env args settings)
  return { found with files }

/-- The streams of a run. The standard input is read only where it is the input. -/
def streams (host : Host) (args : List Bytes) : IO (Streams StoredSource StoredSink) := do
  let .ok args := Arguments.parse args | return .stored []
  let .ok _ := Program.loadSettings host args | return .stored []
  if args.input.isSome then return .stored []
  let stdin ← readToEnd (← IO.getStdin) .empty
  return .stored stdin.toList

/-- Runs the program until it ends. Each time it is given more rounds. -/
partial def runToEnd (host : Host) (args : List Bytes) (streams : Streams StoredSource StoredSink)
    (rounds : Nat) : IO Report := do
  match Program.run streams host args rounds with
  | some report => return report
  | none => runToEnd host args streams (2 * rounds)

/-- Makes the machine what a report says it is after the run. -/
def carryOut (before : FileTree) (report : Report) : IO Unit := do
  for (place, entry) in report.files.entries.reverse do
    if before.get? place != some entry then
      match entry with
      | .file content => IO.FS.writeBinFile (name place) ⟨content.toArray⟩
      | .directory => IO.FS.createDirAll (name place)
      | .nullDevice => pure ()
      | .fullDevice => pure ()
      | .barred _ => pure ()
  let stdout ← IO.getStdout
  stdout.write ⟨report.stdout.toArray⟩
  stdout.flush
  for line in report.stderr do
    IO.eprintln line

end RingRelay.Machine

/-- Runs the program with the arguments of the command line; the result is the exit code. -/
def main (args : List String) : IO UInt32 := do
  let args := args.map RingRelay.Utf8.encode
  let host ← RingRelay.Machine.host args
  let streams ← RingRelay.Machine.streams host args
  let report ← RingRelay.Machine.runToEnd host args streams 65536
  RingRelay.Machine.carryOut host.files report
  return UInt32.ofNat report.exitCode
