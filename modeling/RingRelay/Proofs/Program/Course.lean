import Mathlib.Tactic.Common
import RingRelay.Proofs.Config.Precedence
import RingRelay.Proofs.Files.Growth
import RingRelay.Proofs.Relay.Failures
/- How far a run of the program gets, and how it ends.

   A run sets up the settings and the log (`Prepared`), opens the input and the output (`Opened`)
   and relays. The relay is one between any streams, and need not return. `Ending` has a case for
   each point at which a run can end, with the failure it then meets. The report of a run tells of
   one of them (`exists_ending`), and each of them has a report that tells of it
   (`Ending.exists_report`). -/
namespace RingRelay

/-! ## The log -/

namespace Log

variable {env : Environment} {processId : String} {files : FileTree} {settings : LoggingSettings}

/-- What setting up a log with a file adds to the files: the directories that are made for it, and
    the empty file in the last of them. -/
def Adds (env : Environment) (processId : String) (files : FileTree) (settings : LoggingSettings)
    (place : Place) (entry : Entry) : Prop :=
  settings.enabled ∧ settings.file ∧
    (entry = .directory ∧
        (files.makeDirectories (directory env settings)).1.get? place = some .directory ∨
      entry = .file [] ∧ ∃ above,
        (files.makeDirectories (directory env settings)).2 = .ok above ∧
          place = above ++ [fileName processId])

theorem grows_makeFile (enabled : settings.enabled) (file : settings.file) :
    files.Grows (Adds env processId files settings) (makeFile env processId files settings).1 := by
  have hgrows : files.Grows (Adds env processId files settings)
      (files.makeDirectories (directory env settings)).1 := by
    apply (files.grows_makeDirectories (directory env settings)).new_and_get?.mono
    intro place entry hadds
    obtain ⟨rfl, hget⟩ := hadds
    exact ⟨enabled, file, .inl ⟨rfl, hget⟩⟩
  unfold makeFile
  split
  · next h => rwa [h] at hgrows
  · next later above h =>
    rw [h] at hgrows
    exact hgrows.trans (.touch ⟨enabled, file, .inr ⟨rfl, above, by rw [h], rfl⟩⟩)

theorem grows_setUp (env : Environment) (processId : String) (files : FileTree)
    (settings : LoggingSettings) :
    files.Grows (Adds env processId files settings) (setUp env processId files settings).1 := by
  unfold setUp
  split
  · exact .refl files
  · next enabled =>
    split
    · exact .refl files
    · cases file : settings.file with
      | false => exact .refl files
      | true => exact grows_makeFile (by simpa using enabled) file

/-- Lets through what is not for debugging. -/
def infoFilter : Filter := ⟨[⟨none, [], .upTo .info⟩]⟩

theorem chooseFilter_info (h : env.logFilter = none) :
    chooseFilter env "info" = .ok (infoFilter, []) := by
  have hread : Filter.read "info" = .ok infoFilter := rfl
  simp only [chooseFilter, Environment.telling?, Environment.text?, h, hread]
  rfl

/-- The log of the default settings, which goes to the standard error stream. -/
def consoleOnly : Log := ⟨infoFilter, true, none, []⟩

theorem setUp_default (h : env.logFilter = none) :
    setUp env processId files {} = (files, .ok consoleOnly) := by
  simp only [setUp, chooseFilter_info h]
  rfl

end Log

/-- A run ends with a failure: its exit code is the code of the failure, and the last line of the
    standard error stream is the text of the failure. -/
structure Report.Fails (report : Report) (failure : Failure) : Prop where
  exitCode_eq : report.exitCode = failure.exitCode
  lastLine_eq : report.stderr.getLast? = some failure.message

/-- A report tells of a failure, or of none. -/
def Report.Tells (report : Report) : Option Failure → Prop
  | some failure => report.Fails failure
  | none => report.exitCode = 0

namespace Program

variable {ρ ω : Type} {streams : Streams ρ ω} {host : Host} {args : Arguments}
  {settings : Settings} {files : FileTree} {log : Log} {rounds : Nat} {report : Report}

/-! ## What is set up -/

/-- The settings and the log have been set up, which leaves the files as `files`. -/
structure Prepared (host : Host) (args : Arguments) (settings : Settings) (files : FileTree)
    (log : Log) : Prop where
  loaded : loadSettings host args = .ok settings
  logged : Log.setUp host.environment host.processId host.files settings.logging = (files, .ok log)

/-- A run at the point where the relay begins: all has been set up, the input is open and the output
    is created. -/
structure Opened (host : Host) (args : Arguments) where
  settings : Settings
  log : Log
  /-- The files before the output is created. -/
  before : FileTree
  /-- The files afterwards. -/
  files : FileTree
  input : Input
  output : Output
  prepared : Prepared host args settings before log
  input_eq : openInput before args.input = .ok input
  output_eq : openOutput before args.output = .ok (files, output)

/-- How the relay of a run ends, if it is over within so many rounds. -/
def Opened.pumped (streams : Streams ρ ω) (run : Opened host args) (rounds : Nat) :
    Option (Relay.Pumped ρ ω) :=
  Relay.pumpWithin streams.reader streams.writer run.settings.relay host.memory
    run.settings.buffer.capacity (source streams run.files run.input)
    (sink streams run.files run.output) rounds

/-- The relay of a run returns. -/
def Opened.Returns (streams : Streams ρ ω) (run : Opened host args)
    (result : Except RelayError RelayStats) : Prop :=
  ∃ rounds pumped, run.pumped streams rounds = some pumped ∧ pumped.result = result

/-- With a ring, that is how a relay through it ends. -/
theorem Opened.pumped_of_runWithin {opened : Opened host args} {ring : Ring}
    {outcome : Relay.Outcome ρ ω}
    (allocated : Ring.create host.memory opened.settings.buffer.capacity = .ok ring)
    (h : Relay.runWithin streams.reader streams.writer opened.settings.relay rounds
      (Relay.start streams.writer opened.settings.relay ring
        (source streams opened.files opened.input) (sink streams opened.files opened.output)) =
        some outcome) : opened.pumped streams rounds = some outcome.pumped := by
  simp only [Opened.pumped, Relay.pumpWithin, allocated, h, Option.map_some]

/-- What a run adds to the files before it creates its output. -/
def Adds (host : Host) (args : Arguments) (place : Place) (entry : Entry) : Prop :=
  ∃ settings, loadSettings host args = .ok settings ∧
    Log.Adds host.environment host.processId host.files settings.logging place entry

theorem grows_setUp (h : loadSettings host args = .ok settings) :
    host.files.Grows (Adds host args)
      (Log.setUp host.environment host.processId host.files settings.logging).1 :=
  (Log.grows_setUp ..).mono fun _ _ hadds => ⟨settings, h, hadds⟩

theorem Prepared.grows (h : Prepared host args settings files log) :
    host.files.Grows (Adds host args) files := by
  have hgrows := grows_setUp h.loaded
  rwa [h.logged] at hgrows

theorem runWith_of_prepared (h : Prepared host args settings files log) :
    runWith streams host args rounds =
      relayFiles streams host settings log files args rounds := by
  simp only [runWith, h.loaded, h.logged]

theorem runWith_of_opened (opened : Opened host args) :
    runWith streams host args rounds = (opened.pumped streams rounds).map
      (conclude streams opened.settings opened.log opened.files opened.output) := by
  rw [runWith_of_prepared opened.prepared]
  simp only [relayFiles, opened.input_eq, opened.output_eq]
  rfl

theorem run_of_parsed {words : List Bytes} (parsed : Arguments.parse words = .ok args) :
    run streams host words rounds = runWith streams host args rounds := by
  rw [run, parsed]

/-- More rounds do not change the report of a run that is over. -/
theorem runWith_mono {more : Nat} (hle : rounds ≤ more)
    (h : runWith streams host args rounds = some report) :
    runWith streams host args more = some report := by
  unfold runWith relayFiles relay at h ⊢
  split at h
  · exact h
  split at h
  · exact h
  split at h
  · exact h
  split at h
  · exact h
  · obtain ⟨pumped, hpumped, rfl⟩ := Option.map_eq_some_iff.mp h
    exact Option.map_eq_some_iff.mpr ⟨pumped, Relay.pumpWithin_mono hle hpumped, rfl⟩

theorem run_mono {words : List Bytes} {more : Nat} (hle : rounds ≤ more)
    (h : run streams host words rounds = some report) :
    run streams host words more = some report := by
  cases parsed : Arguments.parse words with
  | ok args =>
    rw [run_of_parsed parsed] at h ⊢
    exact runWith_mono hle h
  | error stop =>
    rw [run, parsed] at h ⊢
    cases stop <;> exact h

/-- A run has at most one report. -/
theorem EndsWith.unique {words : List Bytes} {report' : Report}
    (h : EndsWith streams host words report) (h' : EndsWith streams host words report') :
    report = report' := by
  obtain ⟨rounds, hrun⟩ := h
  obtain ⟨rounds', hrun'⟩ := h'
  have hmore := run_mono (Nat.le_max_left rounds rounds') hrun
  have hmore' := run_mono (Nat.le_max_right rounds rounds') hrun'
  exact Option.some.inj (hmore.symm.trans hmore')

/-! ## How a run ends -/

/-- The points at which a run can end: with a failure that it meets there, or behind a relay that
    ended well. -/
inductive Ending (streams : Streams ρ ω) (host : Host) (args : Arguments) :
    Option Failure → Prop
  | settings {failure : Failure} (h : loadSettings host args = .error failure) :
      Ending streams host args (some failure)
  | log {settings : Settings} {text : String} (loaded : loadSettings host args = .ok settings)
      (h : (Log.setUp host.environment host.processId host.files settings.logging).2 =
        .error text) : Ending streams host args (some (.logging text))
  | input {settings : Settings} {files : FileTree} {log : Log} {error : IoError}
      (prepared : Prepared host args settings files log)
      (h : openInput files args.input = .error error) :
      Ending streams host args (some (.io error))
  | output {settings : Settings} {files : FileTree} {log : Log} {input : Input} {error : IoError}
      (prepared : Prepared host args settings files log)
      (opened : openInput files args.input = .ok input)
      (h : openOutput files args.output = .error error) :
      Ending streams host args (some (.io error))
  | relay (opened : Opened host args) {error : RelayError}
      (h : opened.Returns streams (.error error)) : Ending streams host args (some (.relay error))
  | done (opened : Opened host args) {stats : RelayStats}
      (h : opened.Returns streams (.ok stats)) : Ending streams host args none

/-- What a relay that returned means for the run. -/
def failureOf : Except RelayError RelayStats → Option Failure
  | .ok _ => none
  | .error error => some (.relay error)

theorem tells_failEarly (files : FileTree) (failure : Failure) :
    (failEarly files failure).Tells (some failure) := ⟨rfl, rfl⟩

theorem tells_close (log : Log) (files : FileTree) (stdout : Bytes) (events : List Event)
    (failure : Option Failure) : (close log files stdout events failure).Tells failure := by
  cases failure with
  | none => exact rfl
  | some failure => exact ⟨rfl, by simp [close]⟩

/-- The report of a run whose relay returned tells how. -/
theorem tells_conclude (streams : Streams ρ ω) (settings : Settings) (log : Log) (files : FileTree)
    (output : Output) (pumped : Relay.Pumped ρ ω) :
    (conclude streams settings log files output pumped).Tells (failureOf pumped.result) := by
  unfold conclude
  cases pumped.result with
  | ok stats => exact tells_close ..
  | error error => exact tells_close ..

/-- What a run ends with is one of the endings, and its report tells of it. -/
theorem exists_ending (h : runWith streams host args rounds = some report) :
    ∃ failure, Ending streams host args failure ∧ report.Tells failure := by
  cases hload : loadSettings host args with
  | error failure =>
    rw [runWith, hload] at h
    cases h
    exact ⟨_, .settings hload, tells_failEarly ..⟩
  | ok settings =>
    rcases hlog : Log.setUp host.environment host.processId host.files settings.logging
      with ⟨files, text | log⟩
    · simp only [runWith, hload, hlog] at h
      cases h
      exact ⟨_, .log hload (by rw [hlog]), tells_failEarly ..⟩
    · have prepared : Prepared host args settings files log := ⟨hload, hlog⟩
      cases hinput : openInput files args.input with
      | error error =>
        rw [runWith_of_prepared prepared, relayFiles, hinput] at h
        cases h
        exact ⟨_, .input prepared hinput, tells_close ..⟩
      | ok input =>
        cases houtput : openOutput files args.output with
        | error error =>
          simp only [runWith_of_prepared prepared, relayFiles, hinput, houtput] at h
          cases h
          exact ⟨_, .output prepared hinput houtput, tells_close ..⟩
        | ok after =>
          let opened : Opened host args :=
            ⟨settings, log, files, after.1, input, after.2, prepared, hinput, houtput⟩
          rw [runWith_of_opened opened] at h
          obtain ⟨pumped, hpumped, rfl⟩ := Option.map_eq_some_iff.mp h
          have htells := tells_conclude streams settings log after.1 after.2 pumped
          cases hresult : pumped.result with
          | ok stats =>
            rw [hresult] at htells
            exact ⟨_, .done opened ⟨rounds, pumped, hpumped, hresult⟩, htells⟩
          | error error =>
            rw [hresult] at htells
            exact ⟨_, .relay opened ⟨rounds, pumped, hpumped, hresult⟩, htells⟩

theorem Opened.Returns.exists_report {opened : Opened host args}
    {result : Except RelayError RelayStats} (h : opened.Returns streams result) :
    ∃ rounds report, runWith streams host args rounds = some report ∧
      report.Tells (failureOf result) := by
  obtain ⟨rounds, pumped, hpumped, rfl⟩ := h
  refine ⟨rounds, conclude streams opened.settings opened.log opened.files opened.output pumped, ?_,
    tells_conclude ..⟩
  rw [runWith_of_opened opened, hpumped]
  rfl

/-- Each of the endings has a report, which tells of it. -/
theorem Ending.exists_report {failure : Option Failure} (h : Ending streams host args failure) :
    ∃ rounds report, runWith streams host args rounds = some report ∧ report.Tells failure := by
  cases h with
  | settings h => exact ⟨0, failEarly host.files _, by simp only [runWith, h], tells_failEarly ..⟩
  | @log settings text loaded h =>
    rcases hlog : Log.setUp host.environment host.processId host.files settings.logging
      with ⟨files, text' | log⟩
    · rw [hlog] at h
      cases h
      exact ⟨0, failEarly files _, by simp only [runWith, loaded, hlog], tells_failEarly ..⟩
    · rw [hlog] at h
      cases h
  | @input settings files log error prepared h =>
    refine ⟨0, close log files [] [] _, ?_, tells_close ..⟩
    simp only [runWith_of_prepared prepared, relayFiles, h]
  | @output settings files log input error prepared opened h =>
    refine ⟨0, close log files [] [] _, ?_, tells_close ..⟩
    simp only [runWith_of_prepared prepared, relayFiles, opened, h]
  | relay opened h => exact h.exists_report
  | done opened h => exact h.exists_report

/-- A run ends, unless it comes to a relay that never returns. -/
theorem exists_report_or_opened (streams : Streams ρ ω) (host : Host) (args : Arguments) :
    (∃ rounds report, runWith streams host args rounds = some report) ∨
      ∃ opened : Opened host args, ∀ result, ¬ opened.Returns streams result := by
  cases h : runWith streams host args 0 with
  | some report => exact .inl ⟨0, report, h⟩
  | none =>
    -- All other ways to end have a report without any round.
    unfold runWith relayFiles at h
    split at h
    · cases h
    next settings hload =>
    split at h
    · cases h
    next files log hlog =>
    split at h
    · cases h
    next input hinput =>
    split at h
    · cases h
    next after output houtput =>
    let opened : Opened host args :=
      ⟨settings, log, files, after, input, output, ⟨hload, hlog⟩, hinput, houtput⟩
    by_cases hreturns : ∃ result, opened.Returns streams result
    · obtain ⟨result, hreturns⟩ := hreturns
      obtain ⟨rounds, report, hrun, _⟩ := hreturns.exists_report
      exact .inl ⟨rounds, report, hrun⟩
    · exact .inr ⟨opened, not_exists.mp hreturns⟩

end Program

end RingRelay
