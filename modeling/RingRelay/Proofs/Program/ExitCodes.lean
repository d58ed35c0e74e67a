import RingRelay.Proofs.Program.Course
import RingRelay.Proofs.Relay.Copying
import RingRelay.Proofs.Relay.Remains
/- The exit codes of the program, and what a run that ends early leaves as it was.

   Each code stands for some of the points at which a run can end (`Ending.code_cases`), and so is
   given exactly where one of these is reached (`exit_codes`). Until the output is created nothing
   has been written but by the log. It makes its directories and its file before it looks at its
   level, which can be faulty, and changes no entry that there is (`Spares`). Should the output be
   meant to go just there, something is there already when the run fails (`output_made_by_log`). -/
namespace RingRelay.Program

variable {ρ ω : Type} {streams : Streams ρ ω} {host : Host} {args : Arguments}
  {settings : Settings} {files : FileTree} {log : Log} {rounds : Nat} {report : Report}

/-! ## Exit codes -/

/-- A run ends with an exit code. -/
def ExitsWith (streams : Streams ρ ω) (host : Host) (words : List Bytes) (code : Nat) : Prop :=
  ∃ report, EndsWith streams host words report ∧ report.exitCode = code

/-- The exit code of an ending. -/
def exitCode (failure : Option Failure) : Nat := (failure.map Failure.exitCode).getD 0

theorem exitCode_of_tells {failure : Option Failure} (h : report.Tells failure) :
    report.exitCode = exitCode failure := by
  cases failure with
  | none => exact h
  | some failure => exact h.exitCode_eq

theorem exitsWith_iff {words : List Bytes} (parsed : Arguments.parse words = .ok args)
    {code : Nat} : ExitsWith streams host words code ↔
      ∃ failure, Ending streams host args failure ∧ exitCode failure = code := by
  constructor
  · intro h
    obtain ⟨report, ⟨rounds, hrun⟩, hcode⟩ := h
    rw [run_of_parsed parsed] at hrun
    obtain ⟨failure, hending, htells⟩ := exists_ending hrun
    exact ⟨failure, hending, by rw [← exitCode_of_tells htells, hcode]⟩
  · intro h
    obtain ⟨failure, hending, hcode⟩ := h
    obtain ⟨rounds, report, hrun, htells⟩ := hending.exists_report
    rw [← run_of_parsed parsed] at hrun
    exact ⟨report, ⟨rounds, hrun⟩, by rw [exitCode_of_tells htells, hcode]⟩

/-- A run ends with an exit code, unless it comes to a relay that never returns. -/
theorem exists_exitsWith_or_opened (streams : Streams ρ ω) (host : Host) {words : List Bytes}
    (parsed : Arguments.parse words = .ok args) :
    (∃ code, ExitsWith streams host words code) ∨
      ∃ opened : Opened host args, ∀ result, ¬ opened.Returns streams result := by
  rcases exists_report_or_opened streams host args with ⟨rounds, report, hrun⟩ | hnever
  · rw [← run_of_parsed parsed] at hrun
    exact .inl ⟨report.exitCode, report, ⟨rounds, hrun⟩, rfl⟩
  · exact .inr hnever

/-- An endpoint of the relay failed it, or there was no memory for the ring. -/
theorem Opened.Returns.error_cases {opened : Opened host args} {error : RelayError}
    (h : opened.Returns streams (.error error)) :
    error.OfEndpoint ∨ ∃ cause, error = .ring (.allocation opened.settings.buffer.capacity cause) ∧
      Ring.create host.memory opened.settings.buffer.capacity =
        .error (.allocation opened.settings.buffer.capacity cause) := by
  obtain ⟨rounds, pumped, hpumped, hresult⟩ := h
  -- A ring without cells would fail in a third way, but no settings ask for one.
  have hpositive := capacity_ne_zero opened.prepared.loaded
  unfold Opened.pumped Relay.pumpWithin at hpumped
  split at hpumped
  · next ringError hcreate =>
    cases hpumped
    obtain rfl := Except.error.inj hresult
    refine .inr ?_
    unfold Ring.create at hcreate ⊢
    rw [dif_neg hpositive] at hcreate ⊢
    split at hcreate
    · next hlarge => exact ⟨_, by rw [Except.error.inj hcreate], by rw [dif_pos hlarge]⟩
    · next hfits =>
      split at hcreate
      · next hrefused =>
        exact ⟨_, by rw [Except.error.inj hcreate], by rw [dif_neg hfits, if_pos hrefused]⟩
      · cases hcreate
  · next ring hcreate =>
    obtain ⟨outcome, houtcome, rfl⟩ := Option.map_eq_some_iff.mp hpumped
    exact .inl ((Relay.Returned.ofRunWithin houtcome).ofEndpoint hresult)

theorem Opened.returns_of_no_ring (streams : Streams ρ ω) (opened : Opened host args)
    {error : RingError}
    (h : Ring.create host.memory opened.settings.buffer.capacity = .error error) :
    opened.Returns streams (.error (.ring error)) := by
  simp only [Opened.Returns, Opened.pumped, Relay.pumpWithin, h]
  exact ⟨0, _, rfl, rfl⟩

/-- A relay returns whose source gives out. -/
theorem Opened.exists_returns (opened : Opened host args)
    (h : streams.reader.settled.GivesOut (source streams opened.files opened.input)) :
    ∃ result, opened.Returns streams result := by
  cases allocated : Ring.create host.memory opened.settings.buffer.capacity with
  | error error => exact ⟨_, opened.returns_of_no_ring streams allocated⟩
  | ok ring =>
    obtain ⟨n, s, result, hended⟩ := Relay.exists_rounds_eq_ended streams.writer
      opened.settings.relay ring (sink streams opened.files opened.output) h
    have hwithin := Relay.runWithin_start_eq_some_iff.mpr hended
    exact ⟨result, n, _, opened.pumped_of_runWithin allocated hwithin, rfl⟩

theorem source_stored_ne_endless (stdin : Bytes) (files : FileTree) {input : Input}
    (h : ∀ place, input = some place → files.get? place ≠ some .fullDevice) :
    source (Streams.stored stdin) files input ≠ .endless := by
  cases input with
  | none => nofun
  | some place =>
    have hentry := h place rfl
    show StoredSource.ofEntry ((files.get? place).getD (.file [])) ≠ .endless
    cases hget : files.get? place with
    | none => nofun
    | some entry =>
      cases entry with
      | fullDevice => exact absurd hget hentry
      | _ => nofun

/-- Between streams that never wait every run ends, unless its input is a device without end. -/
theorem exists_exitsWith_stored {words : List Bytes} (stdin : Bytes)
    (parsed : Arguments.parse words = .ok args)
    (h : ∀ (opened : Opened host args) place, opened.input = some place →
      opened.files.get? place ≠ some .fullDevice) :
    ∃ code, ExitsWith (Streams.stored stdin) host words code := by
  rcases exists_exitsWith_or_opened (Streams.stored stdin) host parsed with
    hends | ⟨opened, hnever⟩
  · exact hends
  · have hsource := source_stored_ne_endless stdin opened.files (h opened)
    have hgivesOut : (Streams.stored stdin).reader.settled.GivesOut _ :=
      StoredSource.givesOut hsource
    obtain ⟨result, hreturns⟩ := opened.exists_returns hgivesOut
    exact absurd hreturns (hnever result)

/-! ## The kinds of endings -/

/-- There are no settings, or there is no log. -/
def Unprepared (host : Host) (args : Arguments) : Prop :=
  (∃ failure, loadSettings host args = .error failure) ∨
    ∃ settings text, loadSettings host args = .ok settings ∧
      (Log.setUp host.environment host.processId host.files settings.logging).2 = .error text

/-- The input cannot be opened. -/
def NoInput (host : Host) (args : Arguments) : Prop :=
  ∃ settings files log error, Prepared host args settings files log ∧
    openInput files args.input = .error error

/-- The output cannot be created. -/
def NoOutput (host : Host) (args : Arguments) : Prop :=
  ∃ settings files log error, Prepared host args settings files log ∧
    openOutput files args.output = .error error

/-- An endpoint fails the relay: a read or a write fails or reports too much, the writer stalls, or
    a flush fails. -/
def EndpointFails (streams : Streams ρ ω) (host : Host) (args : Arguments) : Prop :=
  ∃ (opened : Opened host args) (error : RelayError),
    opened.Returns streams (.error error) ∧ error.OfEndpoint

/-- All has been set up, but there is no memory for the ring. -/
def NoRing (host : Host) (args : Arguments) : Prop :=
  ∃ (opened : Opened host args) (cause : AllocationFault),
    Ring.create host.memory opened.settings.buffer.capacity =
      .error (.allocation opened.settings.buffer.capacity cause)

/-- The relay ends well. -/
def Relays (streams : Streams ρ ω) (host : Host) (args : Arguments) : Prop :=
  ∃ (opened : Opened host args) (stats : RelayStats), opened.Returns streams (.ok stats)

/-- The exit code of an ending, with what it stands for. -/
theorem Ending.code_cases {failure : Option Failure} (h : Ending streams host args failure) :
    exitCode failure = 11 ∧ Unprepared host args ∨
      exitCode failure = 20 ∧
        (NoInput host args ∨ NoOutput host args ∨ EndpointFails streams host args) ∨
      exitCode failure = 50 ∧ NoRing host args ∨
      exitCode failure = 0 ∧ Relays streams host args := by
  cases h with
  | settings h =>
    obtain ⟨text, rfl⟩ := loadSettings_eq_error h
    exact .inl ⟨rfl, .inl ⟨_, h⟩⟩
  | log loaded h => exact .inl ⟨rfl, .inr ⟨_, _, loaded, h⟩⟩
  | input prepared h => exact .inr (.inl ⟨rfl, .inl ⟨_, _, _, _, prepared, h⟩⟩)
  | output prepared opened h =>
    exact .inr (.inl ⟨rfl, .inr (.inl ⟨_, _, _, _, prepared, h⟩)⟩)
  | relay opened h =>
    rcases h.error_cases with ofEndpoint | ⟨cause, rfl, hcreate⟩
    · exact .inr (.inl ⟨ofEndpoint.exitCode, .inr (.inr ⟨opened, _, h, ofEndpoint⟩)⟩)
    · exact .inr (.inr (.inl ⟨rfl, opened, cause, hcreate⟩))
  | done opened h => exact .inr (.inr (.inr ⟨rfl, opened, _, h⟩))

theorem ExitsWith.cases {words : List Bytes} {code : Nat} (h : ExitsWith streams host words code)
    (parsed : Arguments.parse words = .ok args) :
    code = 11 ∧ Unprepared host args ∨
      code = 20 ∧ (NoInput host args ∨ NoOutput host args ∨ EndpointFails streams host args) ∨
      code = 50 ∧ NoRing host args ∨ code = 0 ∧ Relays streams host args := by
  obtain ⟨failure, hending, rfl⟩ := (exitsWith_iff parsed).mp h
  exact hending.code_cases

theorem Unprepared.exists_ending (streams : Streams ρ ω) (h : Unprepared host args) :
    ∃ failure, Ending streams host args failure ∧ exitCode failure = 11 := by
  rcases h with ⟨failure, h⟩ | ⟨settings, text, loaded, h⟩
  · obtain ⟨text, rfl⟩ := loadSettings_eq_error h
    exact ⟨_, .settings h, rfl⟩
  · exact ⟨_, .log loaded h, rfl⟩

theorem NoInput.exists_ending (streams : Streams ρ ω) (h : NoInput host args) :
    ∃ failure, Ending streams host args failure ∧ exitCode failure = 20 := by
  obtain ⟨settings, files, log, error, prepared, h⟩ := h
  exact ⟨_, .input prepared h, rfl⟩

theorem NoOutput.exists_ending (streams : Streams ρ ω) (h : NoOutput host args) :
    ∃ failure, Ending streams host args failure ∧ exitCode failure = 20 := by
  obtain ⟨settings, files, log, error, prepared, h⟩ := h
  -- A run that cannot open its input either does not come to its output, but ends with 20 as well.
  cases hinput : openInput files args.input with
  | error error' => exact ⟨_, .input prepared hinput, rfl⟩
  | ok input => exact ⟨_, .output prepared hinput h, rfl⟩

theorem EndpointFails.exists_ending (h : EndpointFails streams host args) :
    ∃ failure, Ending streams host args failure ∧ exitCode failure = 20 := by
  obtain ⟨opened, error, h, ofEndpoint⟩ := h
  exact ⟨_, .relay opened h, ofEndpoint.exitCode⟩

theorem NoRing.exists_ending (streams : Streams ρ ω) (h : NoRing host args) :
    ∃ failure, Ending streams host args failure ∧ exitCode failure = 50 := by
  obtain ⟨opened, cause, h⟩ := h
  exact ⟨_, .relay opened (opened.returns_of_no_ring streams h), rfl⟩

theorem Relays.exists_ending (h : Relays streams host args) :
    ∃ failure, Ending streams host args failure ∧ exitCode failure = 0 := by
  obtain ⟨opened, stats, h⟩ := h
  exact ⟨_, .done opened h, rfl⟩

/-! ## What a run leaves as it was -/

/-- What a path leads to is left as it was. If there was an entry it is still there, with all it
    held. If there is an entry now, it was there before, or setting up the log made it where nothing
    was. -/
structure Spares (host : Host) (args : Arguments) (after : FileTree) (path : Path) : Prop where
  kept : ∀ {place entry}, host.files.find path = .ok (place, entry) →
    after.find path = .ok (place, entry)
  added : ∀ {place entry}, after.find path = .ok (place, entry) →
    host.files.get? place = some entry ∨
      host.files.get? place = none ∧ Adds host args place entry

theorem spares_of_grows {after : FileTree} (h : host.files.Grows (Adds host args) after)
    (path : Path) : Spares host args after path where
  kept hfind := h.find_eq hfind
  added hfind := h.old_or_new (FileTree.find_eq_ok_iff.mp hfind).2.2

theorem grows_of_unprepared (h : Unprepared host args)
    (hrun : runWith streams host args rounds = some report) :
    report.stdout = [] ∧ host.files.Grows (Adds host args) report.files := by
  rcases h with ⟨failure, h⟩ | ⟨settings, text, loaded, h⟩
  · rw [runWith, h] at hrun
    cases hrun
    exact ⟨rfl, .refl host.files⟩
  · have hgrows := grows_setUp loaded
    rcases hlog : Log.setUp host.environment host.processId host.files settings.logging
      with ⟨files, text' | log⟩
    · rw [hlog] at hgrows
      simp only [runWith, loaded, hlog] at hrun
      cases hrun
      exact ⟨rfl, hgrows⟩
    · rw [hlog] at h
      cases h

theorem grows_of_noInput (h : NoInput host args)
    (hrun : runWith streams host args rounds = some report) :
    report.stdout = [] ∧ host.files.Grows (Adds host args) report.files := by
  obtain ⟨settings, files, log, error, prepared, h⟩ := h
  rw [runWith_of_prepared prepared, relayFiles, h] at hrun
  cases hrun
  refine ⟨rfl, prepared.grows.trans ?_⟩
  show files.Grows _ (storeLog files log [])
  unfold storeLog
  split
  · exact .refl files
  · exact .append_nil files _

/-- A run that ends with 11, or cannot open its input, has added to the files what the log adds, and
    nothing else. -/
theorem EndsWith.grows {words : List Bytes} (h : EndsWith streams host words report)
    (parsed : Arguments.parse words = .ok args)
    (hearly : report.exitCode = 11 ∨ NoInput host args) :
    report.stdout = [] ∧ host.files.Grows (Adds host args) report.files := by
  have hcode : ExitsWith streams host words report.exitCode := ⟨report, h, rfl⟩
  obtain ⟨rounds, hrun⟩ := h
  rw [run_of_parsed parsed] at hrun
  rcases hearly with heleven | hinput
  · rw [heleven] at hcode
    have hunprepared : Unprepared host args := by simpa using hcode.cases parsed
    exact grows_of_unprepared hunprepared hrun
  · exact grows_of_noInput hinput hrun

/-! ## Exit codes and what they stand for -/

/-- The exit code tells how far a run got: 11 without settings or a log, 20 without an input,
    without an output or after a relay that an endpoint failed, 50 if all that was there but no
    memory for the ring, and 0 after a relay that ended well. A relay fails in no other way. Every
    run ends with one of them, unless its relay never returns, and has one report only. A relay
    returns if its source gives out, be it at the end of the stream or failing.

    A run that ends with 11 or without an input has written nothing and changed no entry of the
    files. The path of the output in particular leads to what it led to before; all there can be
    anew is what setting up the log made, a directory or the file of the log. -/
theorem exit_codes (streams : Streams ρ ω) (host : Host) {words : List Bytes} {args : Arguments}
    (parsed : Arguments.parse words = .ok args) :
    (ExitsWith streams host words 11 ↔ Unprepared host args) ∧
    (ExitsWith streams host words 20 ↔
      NoInput host args ∨ NoOutput host args ∨ EndpointFails streams host args) ∧
    (ExitsWith streams host words 50 ↔ NoRing host args) ∧
    (ExitsWith streams host words 0 ↔ Relays streams host args) ∧
    (∀ (opened : Opened host args) (error : RelayError), opened.Returns streams (.error error) →
      error.OfEndpoint ∨
        ∃ cause, error = .ring (.allocation opened.settings.buffer.capacity cause)) ∧
    ((∃ code, ExitsWith streams host words code) ∨
      ∃ opened : Opened host args, ∀ result, ¬ opened.Returns streams result) ∧
    (∀ opened : Opened host args,
      streams.reader.settled.GivesOut (source streams opened.files opened.input) →
        ∃ result, opened.Returns streams result) ∧
    (∀ report report', EndsWith streams host words report → EndsWith streams host words report' →
      report = report') ∧
    (∀ report, EndsWith streams host words report → report.exitCode = 11 ∨ NoInput host args →
      report.stdout = [] ∧ host.files.Grows (Adds host args) report.files ∧
        ∀ path, args.output = some path → Spares host args report.files path) := by
  refine ⟨⟨?_, ?_⟩, ⟨?_, ?_⟩, ⟨?_, ?_⟩, ⟨?_, ?_⟩, ?_, ?_, ?_, ?_, ?_⟩
  · exact fun h => by simpa using h.cases parsed
  · exact fun h => (exitsWith_iff parsed).mpr (h.exists_ending streams)
  · exact fun h => by simpa using h.cases parsed
  · intro h
    apply (exitsWith_iff parsed).mpr
    rcases h with h | h | h
    · exact h.exists_ending streams
    · exact h.exists_ending streams
    · exact h.exists_ending
  · exact fun h => by simpa using h.cases parsed
  · exact fun h => (exitsWith_iff parsed).mpr (h.exists_ending streams)
  · exact fun h => by simpa using h.cases parsed
  · exact fun h => (exitsWith_iff parsed).mpr h.exists_ending
  · intro opened error h
    exact h.error_cases.imp_right fun ⟨cause, herror, _⟩ => ⟨cause, herror⟩
  · exact exists_exitsWith_or_opened streams host parsed
  · intro opened h
    exact opened.exists_returns h
  · intro report report' h h'
    exact h.unique h'
  · intro report h hearly
    obtain ⟨stdout_eq, grows⟩ := h.grows parsed hearly
    exact ⟨stdout_eq, grows, fun path _ => spares_of_grows grows path⟩

/-! ### At some machines -/

/-- A machine without files, which has little memory. -/
def bareHost (memory : Nat) : Host where
  environment := { home := some [0x2f] }
  files := ⟨[], []⟩
  memory
  processId := "1"

/-- A standard output that takes nothing, and a standard input with one byte. -/
def stallingStreams : Streams StoredSource Unit where
  reader := StoredSource.reader
  writer :=
    { poll _ _ := (.ready (.ok 0), ())
      flush _ := (.ok (), ())
      patience _ := 0
      patience_lt h := by cases h }
  stdin := .holding [7]
  stdout := ()
  opened _ := .ofEntry
  created _ _ := ()
  written _ := []

theorem stalls_newPair :
    (Relay.moments stallingStreams.reader.raw stallingStreams.writer.raw {} Relay.newPair
      stallingStreams.stdin stallingStreams.stdout 2).stage =
        .ended (.error (.stalledWriter 1)) := rfl

/-- There is no memory for a ring of the usual size, and where there is enough for a smaller one the
    standard output stalls. -/
theorem exit_codes_of_bareHost :
    ExitsWith (Streams.stored [1, 2, 3]) (bareHost 0) [] 50 ∧
      ExitsWith stallingStreams (bareHost 2) [Utf8.encode "--capacity=2"] 20 := by
  constructor
  · have prepared : Prepared (bareHost 0) {} {} (bareHost 0).files .consoleOnly :=
      ⟨rfl, Log.setUp_default rfl⟩
    have codes := exit_codes (Streams.stored [1, 2, 3]) (bareHost 0)
      (show Arguments.parse [] = .ok {} from rfl)
    exact codes.2.2.1.mpr ⟨⟨_, _, _, _, none, none, prepared, rfl, rfl⟩, .refused, rfl⟩
  · have prepared : Prepared (bareHost 2) { capacity := some 2 } { buffer := { capacity := 2 } }
        (bareHost 2).files .consoleOnly := ⟨rfl, Log.setUp_default rfl⟩
    let opened : Opened (bareHost 2) { capacity := some 2 } :=
      ⟨_, _, _, _, none, none, prepared, rfl, rfl⟩
    have codes := exit_codes stallingStreams (bareHost 2)
      (show Arguments.parse [Utf8.encode "--capacity=2"] = .ok { capacity := some 2 } from rfl)
    have stalls : opened.Returns stallingStreams (.error (.stalledWriter 1)) := by
      obtain ⟨n, s, result, hended⟩ := Relay.exists_rounds_eq_ended stallingStreams.writer {}
        Relay.newPair stallingStreams.stdout (StoredSource.yields.runsDry rfl).givesOut
      have hresult := (Relay.Returned.eq_of_moments ⟨_, _, _, _, _, _, s, result, n, hended⟩
        stalls_newPair).2
      obtain rfl : result = .error (.stalledWriter 1) := hresult
      have hwithin := Relay.runWithin_start_eq_some_iff.mpr hended
      have allocated : Ring.create 2 2 = .ok Relay.newPair := rfl
      exact ⟨n, _, opened.pumped_of_runWithin allocated hwithin, rfl⟩
    exact codes.2.1.mpr (.inr (.inr ⟨opened, _, stalls, .stalled 1⟩))

/-- A machine with a file of settings that asks for a log file, and a level from outside. -/
def loggingHost (level : String) : Host where
  environment := { logLevel := some (Utf8.encode level) }
  files := ⟨[([[0x63]], .file (Utf8.encode "[logging]\nfile = true\ndirectory = 'l'\n"))], []⟩
  memory := 16
  processId := "1"

/-- The arguments of a run with these settings. -/
def loggingArgs (output : Path) : Arguments :=
  { config := some [0x63], capacity := some 2, output := some output }

def loggingWords (output : Path) : List Bytes :=
  [Utf8.encode "--config=c", Utf8.encode "--capacity=2", Utf8.encode "--output", output]

def loggingSettings (level : String) : Settings where
  buffer := { capacity := 2 }
  logging := { file := true, directory := some "l", level }

/-- The file of the log as a path, and its place. -/
def loggingPath : Path := Utf8.encode "l/bytering.1.log"

def loggingPlace : Place := [[0x6c], Utf8.encode "bytering.1.log"]

/-- The files when the log has been set up. -/
def loggingFiles (level : String) : FileTree :=
  ((loggingHost level).files.put [[0x6c]] .directory).put loggingPlace (.file [])

theorem makeFile_loggingHost (level : String) :
    Log.makeFile (loggingHost level).environment (loggingHost level).processId
      (loggingHost level).files (loggingSettings level).logging =
        (loggingFiles level, .ok loggingPlace) := rfl

/-- The settings are the same for all outputs. -/
theorem loadSettings_loggingArgs (level : String) (output : Path) :
    loadSettings (loggingHost level) (loggingArgs output) =
      loadSettings (loggingHost level) (loggingArgs []) :=
  loadSettings_of_paths (loggingHost level) (loggingArgs []) none (some output)

theorem loadSettings_bad_level (output : Path) :
    loadSettings (loggingHost "=") (loggingArgs output) = .ok (loggingSettings "=") := by
  rw [loadSettings_loggingArgs]
  decide +kernel

theorem read_bad_level : ∃ fault, Filter.read "=" = .error fault := ⟨_, rfl⟩

theorem chooseFilter_bad_level : ∃ text, Log.chooseFilter (loggingHost "=").environment
    (loggingSettings "=").logging.level = .error text := by
  obtain ⟨fault, hread⟩ := read_bad_level
  show ∃ text, Log.chooseFilter _ "=" = .error text
  simp only [Log.chooseFilter, loggingHost, Environment.telling?, Environment.text?, hread]
  exact ⟨_, rfl⟩

theorem setUp_bad_level : ∃ text,
    Log.setUp (loggingHost "=").environment (loggingHost "=").processId (loggingHost "=").files
      (loggingSettings "=").logging = (loggingFiles "=", .error text) := by
  obtain ⟨text, hchoose⟩ := chooseFilter_bad_level
  simp only [Log.setUp, makeFile_loggingHost, hchoose]
  exact ⟨text, rfl⟩

/-- A level that cannot be read ends a run when its log file is there already. -/
theorem endsWith_of_bad_level {output : Path}
    (parsed : Arguments.parse (loggingWords output) = .ok (loggingArgs output)) :
    ∃ text, EndsWith (Streams.stored []) (loggingHost "=") (loggingWords output)
      (failEarly (loggingFiles "=") (.logging text)) := by
  obtain ⟨text, hlog⟩ := setUp_bad_level
  refine ⟨text, 0, ?_⟩
  rw [run_of_parsed parsed]
  simp only [runWith, loadSettings_bad_level]
  rw [hlog]

/-- The output may be just what the log makes. Where the path of the output led to nothing there is
    the file of the log, or its directory, when the run fails for its level and ends with 11. -/
theorem output_made_by_log :
    Arguments.parse (loggingWords loggingPath) = .ok (loggingArgs loggingPath) ∧
      (loggingHost "=").files.find loggingPath = .error (.system .noEntry) ∧
      (∃ report, EndsWith (Streams.stored []) (loggingHost "=") (loggingWords loggingPath) report ∧
        report.exitCode = 11 ∧ report.files.find loggingPath = .ok (loggingPlace, .file [])) ∧
      Arguments.parse (loggingWords [0x6c]) = .ok (loggingArgs [0x6c]) ∧
      (loggingHost "=").files.find [0x6c] = .error (.system .noEntry) ∧
      ∃ report, EndsWith (Streams.stored []) (loggingHost "=") (loggingWords [0x6c]) report ∧
        report.exitCode = 11 ∧ report.files.find [0x6c] = .ok ([[0x6c]], .directory) := by
  have parsed : Arguments.parse (loggingWords loggingPath) = .ok (loggingArgs loggingPath) := rfl
  have parsed' : Arguments.parse (loggingWords [0x6c]) = .ok (loggingArgs [0x6c]) := rfl
  obtain ⟨text, hends⟩ := endsWith_of_bad_level parsed
  obtain ⟨text', hends'⟩ := endsWith_of_bad_level parsed'
  exact ⟨parsed, rfl, ⟨_, hends, rfl, rfl⟩, parsed', rfl, _, hends', rfl, rfl⟩

end RingRelay.Program
