import RingRelay.Proofs.Program.ExitCodes
import RingRelay.Proofs.Relay.Copying
/- The program copies its input to its output.

   Whatever the settings, a run that can be set up relays all bytes that its input yields to an
   output that collects them: the output then has these bytes and no others, and the standard output
   has nothing unless it is the output (`output_eq_input`). How the bytes are cut into reads and
   writes, and where they wait in between, does not matter.

   The output file must be neither the input nor the file of the log, which gets lines of its own
   when the bytes are there (`output_shared_with_log`). -/
namespace RingRelay

/-! ## The output file -/

namespace FileTree

variable {tree later : FileTree} {path : Path} {place other : Place} {bytes : Bytes}

/-- Creating a regular file empties it, or makes it. -/
theorem create_of_regular (h : tree.create path = .ok (later, place))
    (regular : ∀ entry, tree.get? place = some entry → ∃ old, entry = .file old) :
    later = tree.put place (.file []) ∧ place ≠ [] := by
  have hroot : place ≠ [] := by
    intro hroot
    obtain ⟨old, hold⟩ := regular .directory (by rw [hroot]; rfl)
    cases hold
  refine ⟨?_, hroot⟩
  unfold create at h
  obtain ⟨-, -, h⟩ := Except.bind_eq_ok_iff.mp h
  obtain ⟨place', -, h⟩ := Except.bind_eq_ok_iff.mp h
  split at h
  · cases h; rfl
  · cases h; rfl
  · cases h
  · next hdevice =>
    cases h
    obtain ⟨old, hold⟩ := regular _ hdevice
    cases hold
  · next hdevice =>
    cases h
    obtain ⟨old, hold⟩ := regular _ hdevice
    cases hold
  · cases h

theorem get?_append_of_ne (h : other ≠ place) :
    (tree.append place bytes).get? other = tree.get? other := by
  unfold append
  split
  · exact get?_put_of_ne h
  · rfl

theorem get?_append_self {content : Bytes} (h : tree.get? place = some (.file content))
    (hroot : place ≠ []) :
    (tree.append place bytes).get? place = some (.file (content ++ bytes)) := by
  rw [append, h]
  exact get?_put_self hroot

/-- What is written over an empty file is all that the file then has. -/
theorem get?_overwrite_of_empty (h : tree.get? place = some (.file [])) (hroot : place ≠ []) :
    (tree.overwrite place bytes).get? place = some (.file bytes) := by
  simp only [overwrite, h, List.drop_nil, List.append_nil]
  exact get?_put_self hroot

end FileTree

namespace Program

variable {ρ ω : Type} {streams : Streams ρ ω} {yields : ρ → Bytes → Prop}
  {took : ω → Bytes → Prop} {host : Host} {args : Arguments} {settings : Settings}
  {files later : FileTree} {log : Log} {input : Input} {output : Output} {bytes : Bytes}
  {new : Place → Entry → Prop}

/-- The input yields the bytes: the standard input, or a regular file that holds them. -/
inductive InputHolds (streams : Streams ρ ω) (yields : ρ → Bytes → Prop) (host : Host)
    (args : Arguments) (bytes : Bytes) : Input → Prop
  | stdin (chosen : args.input = none) (holds : yields streams.stdin bytes) :
      InputHolds streams yields host args bytes none
  | file {path : Path} {place : Place} (chosen : args.input = some path)
      (found : host.files.find path = .ok (place, .file bytes))
      (holds : yields (streams.opened place (.file bytes)) bytes) :
      InputHolds streams yields host args bytes (some place)

/-- The output has taken nothing yet: the standard output, or a file at a place that is new or a
    regular one, and neither the input nor the file of the log. `files` are those before it is
    created, and the last ones those afterwards. -/
inductive OutputStores (streams : Streams ρ ω) (took : ω → Bytes → Prop) (args : Arguments)
    (log : Log) (input : Input) (files : FileTree) : Output → FileTree → Prop
  | stdout (chosen : args.output = none) (fresh : took streams.stdout []) :
      OutputStores streams took args log input files none files
  | file {path : Path} {place : Place} {later : FileTree} (chosen : args.output = some path)
      (created : files.create path = .ok (later, place))
      (regular : ∀ entry, files.get? place = some entry → ∃ old, entry = .file old)
      (notInput : input ≠ some place) (notLog : log.file ≠ some place)
      (fresh : took (streams.created place (.file [])) []) :
      OutputStores streams took args log input files (some place) later

namespace InputHolds

theorem openInput_eq (h : InputHolds streams yields host args bytes input)
    (grows : host.files.Grows new files) :
    openInput files args.input = .ok input := by
  cases h with
  | stdin chosen => rw [chosen]; rfl
  | file chosen found =>
    have opened := FileTree.openToRead_eq_ok_iff.mpr ⟨_, grows.find_eq found, nofun⟩
    rw [chosen, openInput, opened]
    rfl

/-- Creating the output leaves the bytes of the input as they are. -/
theorem source_yields (h : InputHolds streams yields host args bytes input)
    (grows : host.files.Grows new files)
    (stores : OutputStores streams took args log input files output later) :
    yields (source streams later input) bytes := by
  cases h with
  | stdin chosen holds => exact holds
  | @file path place chosen found holds =>
    have held : files.get? place = some (.file bytes) :=
      grows.kept (FileTree.find_eq_ok_iff.mp found).2.2
    have kept : later.get? place = some (.file bytes) := by
      cases stores with
      | stdout => exact held
      | @file _ outPlace _ _ created regular notInput =>
        -- Creating the output changes one place, and the input is at another.
        have different : place ≠ outPlace := by
          intro same
          apply notInput
          rw [same]
        rw [(FileTree.create_of_regular created regular).1, FileTree.get?_put_of_ne different, held]
    rw [source, kept]
    exact holds

end InputHolds

namespace OutputStores

theorem openOutput_eq (h : OutputStores streams took args log input files output later) :
    openOutput files args.output = .ok (later, output) := by
  cases h with
  | stdout chosen => rw [chosen]; rfl
  | file chosen created =>
    rw [chosen, openOutput, created]
    rfl

theorem sink_took (h : OutputStores streams took args log input files output later) :
    took (sink streams later output) [] := by
  cases h with
  | stdout chosen fresh => exact fresh
  | file chosen created regular notInput notLog fresh =>
    obtain ⟨rfl, hroot⟩ := FileTree.create_of_regular created regular
    rw [sink, FileTree.get?_put_self hroot]
    exact fresh

/-- The output file has been emptied, so it has what has come through to it and no more, and still
    has when the log has been written. -/
theorem get?_storeLog {place : Place}
    (h : OutputStores streams took args log input files (some place) later) (events : List Event) :
    (storeLog (store later bytes (some place)) log events).get? place = some (.file bytes) := by
  cases h with
  | file chosen created regular notInput notLog =>
    obtain ⟨rfl, hroot⟩ := FileTree.create_of_regular created regular
    have stored : (store (files.put place (.file [])) bytes (some place)).get? place =
        some (.file bytes) :=
      FileTree.get?_overwrite_of_empty (FileTree.get?_put_self hroot) hroot
    unfold storeLog
    split
    · exact stored
    · next logPlace hlog =>
      have different : place ≠ logPlace := by
        intro same
        apply notLog
        rw [hlog, same]
      rw [FileTree.get?_append_of_ne different]
      exact stored

end OutputStores

/-- The report of a run whose relay ended well. -/
theorem conclude_of_ok (streams : Streams ρ ω) (settings : Settings) (log : Log) (files : FileTree)
    (output : Output) {pumped : Relay.Pumped ρ ω} {stats : RelayStats}
    (h : pumped.result = .ok stats) :
    ∃ events, Event.relayed stats ∈ events ∧ conclude streams settings log files output pumped =
      close log (store files (streams.written pumped.sink) output)
        (if output.isNone then streams.written pumped.sink else []) events none := by
  simp only [conclude, h]
  exact ⟨_, by simp, rfl⟩

/-- The report of a run between endpoints that copy a stream. -/
theorem exists_report_of_copying {words : List Bytes} {ring : Ring}
    (hrd : streams.reader.raw.Yields yields)
    (hwr : streams.writer.raw.Collects streams.written took)
    (parsed : Arguments.parse words = .ok args) (opened : Opened host args)
    (allocated : Ring.create host.memory opened.settings.buffer.capacity = .ok ring)
    (hsource : yields (source streams opened.files opened.input) bytes)
    (hsink : took (sink streams opened.files opened.output) []) :
    ∃ stats events, Event.relayed stats ∈ events ∧ EndsWith streams host words
      (close opened.log (store opened.files bytes opened.output)
        (if opened.output.isNone then bytes else []) events none) := by
  obtain ⟨rounds, outcome, stats, hwithin, hok, hwritten⟩ :=
    Relay.exists_runWithin_of_copying hrd hwr opened.settings.relay ring hsource hsink
  rw [Ring.contents_of_create allocated, List.nil_append] at hwritten
  have hpumped : outcome.pumped.result = .ok stats := hok
  obtain ⟨events, hrelayed, hconclude⟩ := conclude_of_ok streams opened.settings opened.log
    opened.files opened.output hpumped
  refine ⟨stats, events, hrelayed, rounds, ?_⟩
  rw [run_of_parsed parsed, runWith_of_opened opened, opened.pumped_of_runWithin allocated hwithin,
    Option.map_some, hconclude]
  show some (close _ (store _ (streams.written outcome.state.sink) _) (if _ then
    streams.written outcome.state.sink else _) _ _) = _
  rw [hwritten]

/-- A run copies its input to its output, whatever its settings: it ends with 0, the output has the
    bytes of the input and no others, also where an old file was longer, and the standard output
    has nothing else. -/
theorem output_eq_input {words : List Bytes} {ring : Ring}
    (hrd : streams.reader.raw.Yields yields)
    (hwr : streams.writer.raw.Collects streams.written took)
    (parsed : Arguments.parse words = .ok args) (prepared : Prepared host args settings files log)
    (allocated : Ring.create host.memory settings.buffer.capacity = .ok ring)
    (holds : InputHolds streams yields host args bytes input)
    (stores : OutputStores streams took args log input files output later) :
    ∃ report, EndsWith streams host words report ∧ report.exitCode = 0 ∧
      match output with
      | none => report.stdout = bytes
      | some place => report.stdout = [] ∧ report.files.get? place = some (.file bytes) := by
  let opened : Opened host args :=
    { settings
      log
      before := files
      files := later
      input
      output
      prepared
      input_eq := holds.openInput_eq prepared.grows
      output_eq := stores.openOutput_eq }
  obtain ⟨stats, events, -, hends⟩ := exists_report_of_copying hrd hwr parsed opened allocated
    (holds.source_yields prepared.grows stores) stores.sink_took
  refine ⟨_, hends, rfl, ?_⟩
  cases output with
  | none => rfl
  | some place => exact ⟨rfl, stores.get?_storeLog events⟩

end Program

/-! ## At some machines -/

/-- A script of pieces, with pauses before, between and behind them, brings the bytes. -/
inductive ReadScript.Brings : ReadScript → Bytes → Prop
  | done : Brings [] []
  | pause {rest : ReadScript} {bytes : Bytes} (h : Brings rest bytes) :
      Brings (.notReady :: rest) bytes
  | piece {rest : ReadScript} {piece bytes : Bytes} (some : piece ≠ []) (h : Brings rest bytes) :
      Brings (.data piece :: rest) (piece ++ bytes)

/-- What is left of a piece is a piece again, or nothing. -/
theorem ReadScript.Brings.putBack {rest : ReadScript} {bytes : Bytes} (h : Brings rest bytes)
    (piece : Bytes) : Brings (ReadScript.putBack piece ++ rest) (piece ++ bytes) := by
  unfold ReadScript.putBack
  split
  · next hnone =>
    rw [List.isEmpty_iff.mp hnone]
    exact h
  · next hsome => exact .piece (mt List.isEmpty_iff.mpr hsome) h

theorem ReadScript.yields : waitingReader.raw.Yields Brings where
  waits {script later bytes room} hbrings hpoll := by
    cases hbrings with
    | done => cases hpoll
    | pause h =>
      cases hpoll
      exact h
    | piece => cases hpoll
  answers {script later bytes room answer} hbrings hpoll := by
    cases hbrings with
    | done =>
      cases hpoll
      refine ⟨0, rfl, Nat.zero_le _, Nat.le_refl _, fun _ hsome => absurd rfl hsome, .done, ?_⟩
      intro slice _
      simp [ReadAnswer.delivered, atEnd]
    | pause h => cases hpoll
    | @piece rest piece bytes some h =>
      cases hpoll
      have hlength : (piece.take room).length = min room piece.length := List.length_take
      have hpiece := List.length_pos_iff.mpr some
      refine ⟨(piece.take room).length, rfl, by omega, ?_, ?_, ?_, ?_⟩
      · rw [List.length_append]
        omega
      · intro hroom _
        omega
      · rw [hlength, List.drop_append_of_le_length (Nat.min_le_right ..), ← List.drop_eq_drop_min]
        exact h.putBack _
      · intro slice hslice
        have hfits : (piece.take room).length ≤ slice.length := by omega
        simp only [ReadAnswer.delivered, delivery, if_pos hfits]
        rw [Cells.overlay_map_some slice _ hfits, hlength,
          List.take_append_of_le_length (Nat.min_le_right ..), ← List.take_eq_take_min]

/-- A sink that takes one byte at a time and keeps it back until it is flushed. -/
structure SlowSink where
  kept : Bytes := []
  through : Bytes := []

def SlowSink.writer : WaitingWriter SlowSink where
  poll sink offered :=
    (.ready (.ok (min 1 offered.length)), { sink with kept := sink.kept ++ offered.take 1 })
  flush sink := (.ok (), { through := sink.through ++ sink.kept })
  patience _ := 0
  patience_lt h := by cases h

theorem SlowSink.collects : writer.raw.Collects SlowSink.through
    fun sink bytes => sink.through ++ sink.kept = bytes where
  waits _ hpoll := by cases hpoll
  answers {sink later bytes offered answer} hsink hpoll := by
    cases hpoll
    refine ⟨min 1 offered.length, rfl, Nat.min_le_right .., ?_, ?_⟩
    · intro hsome
      exact Nat.lt_min.mpr ⟨Nat.one_pos, List.length_pos_iff.mpr hsome⟩
    · rw [← List.take_eq_take_min, ← hsink, List.append_assoc]
  flushWaits _ hflush := by cases hflush
  flushes {sink later bytes answer} hsink hflush := by
    cases hflush
    refine ⟨rfl, ?_, hsink⟩
    show (sink.through ++ sink.kept) ++ [] = bytes
    rw [List.append_nil, hsink]

namespace Program

/-- A machine with an input file, and an output file that is longer. -/
def copyHost : Host where
  environment := { home := some [0x2f] }
  files := ⟨[([[0x69]], .file [1, 2, 3]), ([[0x6f]], .file [9, 9, 9, 9, 9])], []⟩
  memory := 16
  processId := "1"

def copyWords : List Bytes :=
  [Utf8.encode "--capacity=2", Utf8.encode "--input=i", Utf8.encode "--output=o"]

/-- A standard input that comes in two pieces, and a slow standard output. -/
def slowStreams : Streams ReadScript SlowSink where
  reader := ReadScript.waitingReader
  writer := SlowSink.writer
  stdin := [.data [1], .notReady, .data [2, 3, 4]]
  stdout := {}
  opened _ entry := [.data (entry.bytes.toOption.getD [])]
  created _ _ := {}
  written := SlowSink.through

theorem output_eq_input_of_copyHost :
    (∃ report, EndsWith (Streams.stored []) copyHost copyWords report ∧ report.exitCode = 0 ∧
      report.stdout = [] ∧ report.files.get? [[0x6f]] = some (.file [1, 2, 3])) ∧
    ∃ report, EndsWith slowStreams copyHost [Utf8.encode "--capacity=2"] report ∧
      report.exitCode = 0 ∧ report.stdout = [1, 2, 3, 4] := by
  constructor
  · let args : Arguments := { capacity := some 2, input := some [0x69], output := some [0x6f] }
    have parsed : Arguments.parse copyWords = .ok args := rfl
    have prepared : Prepared copyHost args { buffer := { capacity := 2 } } copyHost.files
        .consoleOnly := ⟨rfl, Log.setUp_default rfl⟩
    have regular : ∀ entry, copyHost.files.get? [[0x6f]] = some entry →
        ∃ old, entry = .file old := by
      intro entry h
      exact ⟨_, (Option.some.inj h).symm⟩
    exact output_eq_input StoredSource.yields StoredSink.collects parsed prepared rfl
      (.file rfl rfl rfl) (.file rfl rfl regular (by decide) (by decide) rfl)
  · let args : Arguments := { capacity := some 2 }
    have parsed : Arguments.parse [Utf8.encode "--capacity=2"] = .ok args := rfl
    have prepared : Prepared copyHost args { buffer := { capacity := 2 } } copyHost.files
        .consoleOnly := ⟨rfl, Log.setUp_default rfl⟩
    have brings : ReadScript.Brings slowStreams.stdin [1, 2, 3, 4] :=
      .piece (by decide) (.pause (.piece (by decide) .done))
    have hrd : slowStreams.reader.raw.Yields ReadScript.Brings := ReadScript.yields
    exact output_eq_input hrd SlowSink.collects parsed prepared rfl (.stdin rfl brings)
      (.stdout rfl rfl)

/-- The log of a run with a log file, which is the same for all outputs. -/
def loggingLog : Log := { Log.consoleOnly with file := some loggingPlace }

theorem prepared_loggingHost (output : Path) : Prepared (loggingHost "info") (loggingArgs output)
    (loggingSettings "info") (loggingFiles "info") loggingLog where
  loaded := by
    rw [loadSettings_loggingArgs]
    decide +kernel
  logged := by
    have hchoose : Log.chooseFilter (loggingHost "info").environment
        (loggingSettings "info").logging.level = .ok (Log.infoFilter, []) :=
      Log.chooseFilter_info rfl
    simp only [Log.setUp, makeFile_loggingHost, hchoose]
    rfl

/-- A run in the presence of a log file that reports its relay leaves a line there. -/
theorem lines_ne_nil {stats : RelayStats} {events : List Event}
    (h : Event.relayed stats ∈ events) :
    ((loggingLog.lines events).flatMap fun line => Utf8.encode (line ++ "\n")) ≠ [] := by
  intro hnil
  have hline : (Event.relayed stats).line ∈ loggingLog.lines events := by
    apply List.mem_map_of_mem
    exact List.mem_filter.mpr ⟨h, rfl⟩
  have hempty := List.flatMap_eq_nil_iff.mp hnil _ hline
  have hlast : Utf8.encodeChar '\n' = [] := by
    rw [Utf8.encode, List.flatMap_eq_nil_iff] at hempty
    exact hempty _ (by simp)
  exact Utf8.encodeChar_ne_nil _ hlast

/-- All is set up, and nothing is where the output is to be, which is neither the input nor one of
    the files there were. If it is the file of the log the run ends with 0, but behind the bytes of
    the input there are the lines of the log. If it is the directory of the log there is no
    output. -/
theorem output_shared_with_log :
    (∀ output, Prepared (loggingHost "info") (loggingArgs output) (loggingSettings "info")
      (loggingFiles "info") loggingLog) ∧
    Arguments.parse (loggingWords loggingPath) = .ok (loggingArgs loggingPath) ∧
    (loggingHost "info").files.find loggingPath = .error (.system .noEntry) ∧
    (∃ report line, EndsWith (Streams.stored [1, 2, 3]) (loggingHost "info")
        (loggingWords loggingPath) report ∧ report.exitCode = 0 ∧ line ≠ [] ∧
      report.files.get? loggingPlace = some (.file ([1, 2, 3] ++ line))) ∧
    Arguments.parse (loggingWords [0x6c]) = .ok (loggingArgs [0x6c]) ∧
    (loggingHost "info").files.find [0x6c] = .error (.system .noEntry) ∧
    ∃ report, EndsWith (Streams.stored [1, 2, 3]) (loggingHost "info") (loggingWords [0x6c])
      report ∧ report.exitCode = 20 := by
  have parsed : Arguments.parse (loggingWords loggingPath) = .ok (loggingArgs loggingPath) := rfl
  have parsed' : Arguments.parse (loggingWords [0x6c]) = .ok (loggingArgs [0x6c]) := rfl
  refine ⟨prepared_loggingHost, parsed, rfl, ?_, parsed', rfl, ?_⟩
  · let opened : Opened (loggingHost "info") (loggingArgs loggingPath) :=
      ⟨_, _, _, _, none, some loggingPlace, prepared_loggingHost _, rfl, rfl⟩
    have hrd : (Streams.stored [1, 2, 3]).reader.raw.Yields _ := StoredSource.yields
    have hwr : (Streams.stored [1, 2, 3]).writer.raw.Collects _ _ := StoredSink.collects
    have hsource : source (Streams.stored [1, 2, 3]) opened.files none = .holding [1, 2, 3] := rfl
    obtain ⟨stats, events, hrelayed, hends⟩ :=
      exists_report_of_copying hrd hwr parsed opened rfl hsource rfl
    refine ⟨_, _, hends, rfl, lines_ne_nil hrelayed, ?_⟩
    exact FileTree.get?_append_self rfl (by decide)
  · have hending : Ending (Streams.stored [1, 2, 3]) (loggingHost "info") (loggingArgs [0x6c])
        (some (.io (.system .isADirectory))) := .output (prepared_loggingHost _) rfl rfl
    exact (exitsWith_iff parsed').mpr ⟨_, hending, rfl⟩

end Program

end RingRelay
