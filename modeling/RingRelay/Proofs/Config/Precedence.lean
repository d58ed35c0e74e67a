import RingRelay.Program.Run
import RingRelay.Proofs.Config.Layer
import RingRelay.Proofs.Text.Numeral
import RingRelay.Proofs.Text.Utf8
/- Which source decides a setting.

   Three layers lie over the defaults: a file, over it the environment, and on top the arguments.
   Each source is described by itself: which file is the one, what a file gives, what the variables
   give and what the arguments give. There are settings exactly if every source gives a layer and
   the capacity is not zero, neither on top nor below the arguments. -/
namespace RingRelay

/-! ## The environment -/

namespace Environment

/-- A variable is set to the encoding of a text. -/
def Holds (value : Option Bytes) (text : String) : Prop := value = some (Utf8.encode text)

/-- A variable is set to a text, and not to blanks alone. -/
def Tells (value : Option Bytes) (text : String) : Prop :=
  Holds value text ∧ ∃ c ∈ text.toList, ¬ Text.isBlankChar c

/-- The home directory: the value of the first variable of the two that holds a text. -/
inductive Home (env : Environment) : String → Prop
  | own {home : String} : Holds env.home home → Home env home
  | profile {home : String} : (∀ text, ¬ Holds env.home text) → Holds env.userProfile home →
      Home env home

/-- What a variable gives whose text is read by `reads`. For a text that cannot be read there is no
    case: it gives neither something nor nothing. -/
inductive Given {α : Type} (value : Option Bytes) (reads : String → α → Prop) : Option α → Prop
  | silent : (∀ text, ¬ Tells value text) → Given value reads none
  | told {text : String} {a : α} : Tells value text → reads text a → Given value reads (some a)

/-- The variables give the layer: a capacity with blanks around it, and a level as it is written. -/
structure Gives (env : Environment) (layer : Layer) : Prop where
  capacity : Given env.capacity
    (fun text n => Text.Writes (Text.trimChars text.toList) n ∧ n ≤ Text.maxSize) layer.capacity
  level : Given env.logLevel (fun text level => level = text) layer.level
  alone : layer = { capacity := layer.capacity, level := layer.level }

variable {value : Option Bytes} {text other : String} {env : Environment}

theorem text?_eq_some_iff : text? value = some text ↔ Holds value text := by
  simp only [text?, Holds, Option.bind_eq_bind, Option.bind_eq_some_iff, Utf8.decode?_eq_some_iff,
    Option.pure_def, Option.some.injEq]
  constructor
  · rintro ⟨_, rfl, cs, rfl, rfl⟩
    simp [Utf8.encode]
  · rintro rfl
    exact ⟨_, rfl, text.toList, rfl, String.ofList_toList⟩

theorem text?_eq_none_iff : text? value = none ↔ ∀ text, ¬ Holds value text := by
  simp only [← text?_eq_some_iff, Option.eq_none_iff_forall_ne_some, ne_eq]

theorem telling?_eq_some_iff : telling? value = some text ↔ Tells value text := by
  simp [telling?, Option.filter_eq_some_iff, text?_eq_some_iff, Tells, Text.isBlank]

theorem telling?_eq_none_iff : telling? value = none ↔ ∀ text, ¬ Tells value text := by
  simp only [← telling?_eq_some_iff, Option.eq_none_iff_forall_ne_some, ne_eq]

theorem homeDirectory?_eq_some_iff : homeDirectory? env = some text ↔ Home env text := by
  rw [homeDirectory?, Option.or_eq_some_iff, text?_eq_some_iff, text?_eq_none_iff,
    text?_eq_some_iff]
  constructor
  · rintro (own | ⟨none, profile⟩)
    · exact .own own
    · exact .profile none profile
  · rintro (own | ⟨none, profile⟩)
    · exact .inl own
    · exact .inr ⟨none, profile⟩

/-- There is at most one home directory. -/
theorem Home.unique (h : Home env text) (h' : Home env other) : text = other := by
  rw [← homeDirectory?_eq_some_iff] at h h'
  exact Option.some.inj (h.symm.trans h')

theorem given_iff {α : Type} {reads : String → α → Prop} {said : Option α} :
    Given value reads said ↔ Option.Rel reads (telling? value) said := by
  cases told : telling? value with
  | none =>
    have silent := telling?_eq_none_iff.mp told
    constructor
    · rintro (- | ⟨tells, -⟩)
      · exact .none
      · exact absurd tells (silent _)
    · rintro ⟨⟩
      exact .silent silent
  | some text =>
    have tells := telling?_eq_some_iff.mp told
    constructor
    · rintro (silent | ⟨tells', read⟩)
      · exact absurd tells (silent text)
      · obtain rfl := Option.some.inj (told.symm.trans (telling?_eq_some_iff.mpr tells'))
        exact .some read
    · rintro ⟨read⟩
      exact .told tells read

/-- The capacity is the one that the variable gives, or else the one below. -/
theorem applyEnvironment_capacity {below above : Settings} :
    Config.applyEnvironment env below = .ok above ↔
      ∃ capacity, (∃ given, Given env.capacity
          (fun text n => Text.Writes (Text.trimChars text.toList) n ∧ n ≤ Text.maxSize) given ∧
            capacity = given.getD below.buffer.capacity) ∧
        { below with
          buffer := { capacity }
          logging := { below.logging with
            level := (telling? env.logLevel).getD below.logging.level } } = above := by
  simp only [given_iff, Option.exists_rel_getD_iff, ← Text.readSize_eq_ok_iff]
  unfold Config.applyEnvironment
  cases telling? env.capacity with
  | none => simp [bind, Except.bind, pure, Except.pure]
  | some text =>
    dsimp only
    cases Text.readSize (Text.trimChars text.toList) <;> simp [bind, Except.bind, pure, Except.pure]

theorem level_eq_iff {lower level : String} :
    level = (telling? env.logLevel).getD lower ↔
      ∃ given, Given env.logLevel (fun text level => level = text) given ∧
        level = given.getD lower := by
  simp only [given_iff, Option.exists_rel_getD_iff]
  cases telling? env.logLevel <;> rfl

/-- What the variables give lies over the settings. -/
theorem applyEnvironment_eq_ok_iff {lower : Layer} {settings : Settings} :
    Config.applyEnvironment env lower.settings = .ok settings ↔
      ∃ layer, env.Gives layer ∧ settings = (layer.above lower).settings := by
  rw [applyEnvironment_capacity]
  constructor
  · rintro ⟨_, ⟨capacity, givenCapacity, rfl⟩, rfl⟩
    obtain ⟨level, givenLevel, level_eq⟩ := level_eq_iff.mp (Eq.refl
      ((telling? env.logLevel).getD lower.settings.logging.level))
    refine ⟨{ capacity, level }, ⟨givenCapacity, givenLevel, rfl⟩, ?_⟩
    rw [level_eq]
    simp [Layer.settings, Layer.above]
  · rintro ⟨layer, gives, rfl⟩
    have level_eq := level_eq_iff.mpr ⟨_, gives.level, Eq.refl
      (layer.level.getD lower.settings.logging.level)⟩
    refine ⟨_, ⟨_, gives.capacity, rfl⟩, ?_⟩
    rw [← level_eq, gives.alone]
    simp [Layer.settings, Layer.above]

end Environment

/-! ## The file -/

namespace Config

/-- The file with the settings in a home directory. -/
def fileOf (home : String) : Path :=
  Path.join (Path.join (Utf8.encode home) (Utf8.encode ".bytering")) (Utf8.encode "config.toml")

/-- The file that is read, or that none is: a given one, whether it exists or not, or else the first
    that exists of the file of the home directory and the one in the working directory. Only in the
    second case a home directory is needed. -/
inductive Chosen (env : Environment) (tree : FileTree) : Option Path → Option Path → Prop
  | given {path : Path} : Chosen env tree (some path) (some path)
  | user {home : String} : env.Home home → tree.has (fileOf home) →
      Chosen env tree none (some (fileOf home))
  | working {home : String} : env.Home home → ¬ tree.has (fileOf home) → tree.has localFile →
      Chosen env tree none (some localFile)
  | defaults {home : String} : env.Home home → ¬ tree.has (fileOf home) → ¬ tree.has localFile →
      Chosen env tree none none

/-- The file gives the layer: it can be read, it is text, the text is a document, and the document
    gives the layer. No file gives nothing. -/
inductive FileGives (tree : FileTree) : Option Path → Layer → Prop
  | none : FileGives tree none {}
  | document {path : Path} {place : Place} {entry : Entry} {text : String} {table : Toml.Table}
      {layer : Layer} : tree.find path = .ok (place, entry) → entry.bytes = .ok (Utf8.encode text) →
      Toml.parse text = some table → table.Gives layer → FileGives tree (some path) layer

variable {env : Environment} {tree : FileTree} {path : Path} {text : String}
  {given chosen other : Option Path} {settings : Settings} {layer : Layer}

/-- There is at most one file that is read. -/
theorem Chosen.unique (h : Chosen env tree given chosen) (h' : Chosen env tree given other) :
    chosen = other := by
  cases h with
  | given => cases h'; rfl
  | user home found =>
    cases h' with
    | user home' => rw [home.unique home']
    | working home' missing => exact absurd found (home.unique home' ▸ missing)
    | defaults home' missing => exact absurd found (home.unique home' ▸ missing)
  | working home missing found =>
    cases h' with
    | user home' found' => exact absurd found' (home.unique home' ▸ missing)
    | working => rfl
    | defaults _ _ missing' => exact absurd found missing'
  | defaults home missing missing' =>
    cases h' with
    | user home' found => exact absurd found (home.unique home' ▸ missing)
    | working _ _ found => exact absurd found missing'
    | defaults => rfl

theorem readText_eq_ok_iff : tree.readText path = .ok text ↔
    ∃ place entry, tree.find path = .ok (place, entry) ∧ entry.bytes = .ok (Utf8.encode text) := by
  simp only [FileTree.readText, Except.bind_eq_ok_iff, Prod.exists]
  constructor
  · rintro ⟨place, entry, found, bytes, readable, h⟩
    split at h
    next => cases h
    next cs decoded =>
      cases h
      rw [Utf8.decode?_eq_some_iff.mp decoded] at readable
      exact ⟨place, entry, found, by simpa [Utf8.encode] using readable⟩
  · rintro ⟨place, entry, found, readable⟩
    refine ⟨place, entry, found, _, readable, ?_⟩
    rw [Utf8.decode?_encode]
    exact congrArg Except.ok String.ofList_toList

theorem readFile_eq_ok_iff : readFile tree path = .ok settings ↔
    ∃ layer, FileGives tree (some path) layer ∧ settings = layer.settings := by
  constructor
  · intro h
    unfold readFile at h
    split at h
    next => cases h
    next text read =>
    split at h
    next => cases h
    next table parsed =>
    split at h
    next => cases h
    next decoded =>
      cases h
      obtain ⟨place, entry, found, readable⟩ := readText_eq_ok_iff.mp read
      obtain ⟨layer, gives, rfl⟩ := Settings.decode_eq_ok_iff.mp decoded
      exact ⟨layer, .document found readable parsed gives, rfl⟩
  · rintro ⟨layer, given, rfl⟩
    cases given with
    | document found readable parsed gives =>
      have read := readText_eq_ok_iff.mpr ⟨_, _, found, readable⟩
      have decoded := Settings.decode_eq_ok_iff.mpr ⟨layer, gives, rfl⟩
      simp only [readFile, read, parsed, decoded]

theorem userFile_eq_ok_iff :
    userFile env = .ok path ↔ ∃ home, env.Home home ∧ path = fileOf home := by
  simp only [← Environment.homeDirectory?_eq_some_iff, userFile, dataDirectory,
    Except.bind_eq_ok_iff, fileOf]
  cases env.homeDirectory? <;> simp [pure, Except.pure, eq_comm]

theorem readUsual_eq_ok_iff : readUsual env tree = .ok settings ↔ ∃ chosen layer,
    Chosen env tree none chosen ∧ FileGives tree chosen layer ∧ settings = layer.settings := by
  simp only [readUsual, Except.bind_eq_ok_iff, userFile_eq_ok_iff]
  constructor
  · rintro ⟨_, ⟨home, isHome, rfl⟩, h⟩
    split at h
    next found =>
      obtain ⟨layer, gives, rfl⟩ := readFile_eq_ok_iff.mp h
      exact ⟨_, layer, .user isHome found, gives, rfl⟩
    next missing =>
    split at h
    next found =>
      obtain ⟨layer, gives, rfl⟩ := readFile_eq_ok_iff.mp h
      exact ⟨_, layer, .working isHome missing found, gives, rfl⟩
    next missing' =>
      cases h
      exact ⟨none, {}, .defaults isHome missing missing', .none, rfl⟩
  · rintro ⟨_, layer, chosen, gives, rfl⟩
    cases chosen with
    | user isHome found =>
      refine ⟨_, ⟨_, isHome, rfl⟩, ?_⟩
      rw [if_pos found]
      exact readFile_eq_ok_iff.mpr ⟨layer, gives, rfl⟩
    | working isHome missing found =>
      refine ⟨_, ⟨_, isHome, rfl⟩, ?_⟩
      rw [if_neg missing, if_pos found]
      exact readFile_eq_ok_iff.mpr ⟨layer, gives, rfl⟩
    | defaults isHome missing missing' =>
      refine ⟨_, ⟨_, isHome, rfl⟩, ?_⟩
      rw [if_neg missing, if_neg missing']
      cases gives
      rfl

theorem validate_eq_ok_iff {valid : Settings} :
    validate settings = .ok valid ↔ settings.buffer.capacity ≠ 0 ∧ valid = settings := by
  unfold validate
  split <;> simp_all [eq_comm]

/-- The settings below the arguments, which may give a file. -/
def load (env : Environment) (tree : FileTree) : Option Path → Except ConfigError Settings
  | some path => loadFrom env tree path
  | none => loadUsual env tree

/-- They are those of the file that is read, with the environment over it, if they can be used. -/
theorem load_eq_ok_iff : load env tree given = .ok settings ↔
      ∃ chosen file vars, Chosen env tree given chosen ∧ FileGives tree chosen file ∧
        env.Gives vars ∧ (vars.above file).settings.buffer.capacity ≠ 0 ∧
        settings = (vars.above file).settings := by
  have above (file : Layer) :
      (∃ s, applyEnvironment env file.settings = .ok s ∧ validate s = .ok settings) ↔
        ∃ vars, env.Gives vars ∧ (vars.above file).settings.buffer.capacity ≠ 0 ∧
          settings = (vars.above file).settings := by
    simp only [Environment.applyEnvironment_eq_ok_iff, validate_eq_ok_iff]
    constructor
    · rintro ⟨_, ⟨vars, gives, rfl⟩, usable, rfl⟩
      exact ⟨vars, gives, usable, rfl⟩
    · rintro ⟨vars, gives, usable, rfl⟩
      exact ⟨_, ⟨vars, gives, rfl⟩, usable, rfl⟩
  cases given with
  | some path =>
    simp only [load, loadFrom, Except.bind_eq_ok_iff, readFile_eq_ok_iff]
    constructor
    · rintro ⟨_, ⟨file, gives, rfl⟩, h⟩
      obtain ⟨vars, h⟩ := (above file).mp h
      exact ⟨_, file, vars, .given, gives, h⟩
    · rintro ⟨_, file, vars, ⟨⟩, gives, h⟩
      exact ⟨_, ⟨file, gives, rfl⟩, (above file).mpr ⟨vars, h⟩⟩
  | none =>
    simp only [load, loadUsual, Except.bind_eq_ok_iff, readUsual_eq_ok_iff]
    constructor
    · rintro ⟨_, ⟨chosen, file, isChosen, gives, rfl⟩, h⟩
      obtain ⟨vars, h⟩ := (above file).mp h
      exact ⟨chosen, file, vars, isChosen, gives, h⟩
    · rintro ⟨chosen, file, vars, isChosen, gives, h⟩
      exact ⟨_, ⟨chosen, file, isChosen, gives, rfl⟩, (above file).mpr ⟨vars, h⟩⟩

end Config

/-! ## The arguments -/

/-- The arguments give a capacity, and that the writer is not to be flushed. -/
def Arguments.layer (args : Arguments) : Layer :=
  { capacity := args.capacity, flushOnDrain := if args.noFlush then some false else none }

namespace Program

variable {host : Host} {args : Arguments} {settings : Settings}

theorem loadSettings_of_error {error : ConfigError}
    (failed : Config.load host.environment host.files args.config = .error error) :
    loadSettings host args = .error (.config error.report) := by
  unfold Config.load at failed
  cases config : args.config <;> rw [config] at failed <;>
    simp [loadSettings, config, failed, bind, Except.bind]

theorem loadSettings_of_ok {below : Settings}
    (loaded : Config.load host.environment host.files args.config = .ok below) :
    loadSettings host args =
      if args.capacity = some 0 then .error (.config "--capacity must be greater than zero")
      else .ok
        { below with
          buffer := { capacity := args.capacity.getD below.buffer.capacity }
          relay := { flushOnDrain := below.relay.flushOnDrain && !args.noFlush } } := by
  unfold Config.load at loaded
  cases config : args.config <;> rw [config] at loaded <;>
    rcases capacity : args.capacity with _ | _ | n <;>
    simp [loadSettings, config, capacity, loaded, bind, Except.bind, pure, Except.pure]

theorem settings_layer_above {below : Layer} :
    (args.layer.above below).settings =
      { below.settings with
        buffer := { capacity := args.capacity.getD below.settings.buffer.capacity }
        relay := { flushOnDrain := below.settings.relay.flushOnDrain && !args.noFlush } } := by
  cases flush : args.noFlush <;> simp [Layer.settings, Layer.above, Arguments.layer, flush]

/-- What the arguments give lies over settings that can be used without them. -/
theorem loadSettings_eq_ok_iff : loadSettings host args = .ok settings ↔
    ∃ chosen file vars, Config.Chosen host.environment host.files args.config chosen ∧
      Config.FileGives host.files chosen file ∧ host.environment.Gives vars ∧
      (vars.above file).settings.buffer.capacity ≠ 0 ∧ args.capacity ≠ some 0 ∧
      settings = (args.layer.above (vars.above file)).settings := by
  cases loaded : Config.load host.environment host.files args.config with
  | error error =>
    rw [loadSettings_of_error loaded]
    refine iff_of_false nofun ?_
    rintro ⟨chosen, file, vars, isChosen, fileGives, envGives, usable, -⟩
    have := Config.load_eq_ok_iff.mpr
      ⟨chosen, file, vars, isChosen, fileGives, envGives, usable, rfl⟩
    rw [loaded] at this
    cases this
  | ok below =>
    rw [loadSettings_of_ok loaded]
    obtain ⟨chosen, file, vars, isChosen, fileGives, envGives, usable, rfl⟩ :=
      Config.load_eq_ok_iff.mp loaded
    constructor
    · intro h
      split at h
      next => cases h
      next positive =>
        cases h
        exact ⟨chosen, file, vars, isChosen, fileGives, envGives, usable, positive,
          settings_layer_above.symm⟩
    · rintro ⟨chosen', file', vars', isChosen', fileGives', envGives', usable', positive, rfl⟩
      -- Whatever file and variables are named, what is loaded below the arguments is the same.
      have same := Config.load_eq_ok_iff.mpr
        ⟨chosen', file', vars', isChosen', fileGives', envGives', usable', rfl⟩
      rw [if_neg positive, settings_layer_above, Except.ok.inj (loaded.symm.trans same)]

/-- Settings that cannot be had are an error of the settings. -/
theorem loadSettings_eq_error {failure : Failure} (h : loadSettings host args = .error failure) :
    ∃ text, failure = .config text := by
  cases loaded : Config.load host.environment host.files args.config with
  | error error =>
    rw [loadSettings_of_error loaded] at h
    exact ⟨_, (Except.error.inj h).symm⟩
  | ok below =>
    rw [loadSettings_of_ok loaded] at h
    split at h
    next => exact ⟨_, (Except.error.inj h).symm⟩
    next => cases h

theorem capacity_ne_zero (h : loadSettings host args = .ok settings) :
    settings.buffer.capacity ≠ 0 := by
  obtain ⟨chosen, file, vars, -, -, -, usable, positive, rfl⟩ := loadSettings_eq_ok_iff.mp h
  rw [settings_layer_above]
  cases capacity : args.capacity with
  | none => exact usable
  | some n =>
    rintro rfl
    exact positive capacity

/-- What is relayed does not matter to the settings. -/
theorem loadSettings_of_paths (host : Host) (args : Arguments) (input output : Option Path) :
    loadSettings host { args with input, output } = loadSettings host args := rfl

/-- With a given file the directories of the user do not matter. -/
theorem loadSettings_of_given {home userProfile : Option Bytes} (given : args.config ≠ none) :
    loadSettings { host with environment := { host.environment with home, userProfile } } args =
      loadSettings host args := by
  obtain ⟨path, config⟩ := Option.ne_none_iff_exists'.mp given
  simp only [loadSettings, config]
  rfl

/-- The settings are those of the arguments over the environment over the file that is read over the
    defaults, and there are settings exactly if all of these give something and the capacity is not
    zero, neither by the arguments nor below them. They never have the capacity zero. All else is an
    error of the settings; above all, if the file that is to be read gives nothing, no other is
    tried. Next to a given file the home directory does not count. -/
theorem settings_precedence (host : Host) (args : Arguments) :
    (∀ settings, loadSettings host args = .ok settings ↔
      ∃ chosen file vars, Config.Chosen host.environment host.files args.config chosen ∧
        Config.FileGives host.files chosen file ∧ host.environment.Gives vars ∧
        (vars.above file).settings.buffer.capacity ≠ 0 ∧ args.capacity ≠ some 0 ∧
        settings = (args.layer.above (vars.above file)).settings) ∧
    (∀ settings, loadSettings host args = .ok settings → settings.buffer.capacity ≠ 0) ∧
    (∀ failure, loadSettings host args = .error failure → ∃ text, failure = .config text) ∧
    (∀ path, Config.Chosen host.environment host.files args.config (some path) →
      (∀ layer, ¬ Config.FileGives host.files (some path) layer) →
        ∃ text, loadSettings host args = .error (.config text)) ∧
    (args.config ≠ none → ∀ home userProfile,
      loadSettings { host with environment := { host.environment with home, userProfile } } args =
        loadSettings host args) := by
  refine ⟨fun _ => loadSettings_eq_ok_iff, fun _ => capacity_ne_zero,
    fun _ => loadSettings_eq_error, ?_, fun given _ _ => loadSettings_of_given given⟩
  intro path isChosen nothing
  cases loaded : loadSettings host args with
  | error failure =>
    obtain ⟨text, rfl⟩ := loadSettings_eq_error loaded
    exact ⟨text, rfl⟩
  | ok settings =>
    obtain ⟨chosen, file, vars, isChosen', gives, -⟩ := loadSettings_eq_ok_iff.mp loaded
    obtain rfl := isChosen.unique isChosen'
    exact absurd gives (nothing file)

/-! ### At one machine -/

/-- A file of settings that says something in each of its sections. -/
def layeredText : String :=
  "[buffer]\ncapacity = 64\n[logging]\nfile = true\nlevel = 'warn'\n" ++
    "[relay]\nflush_on_drain = false\n"

def layeredFiles : FileTree := ⟨[([[0x63]], .file (Utf8.encode layeredText))], []⟩

/-- A machine with this file, and an environment that gives a level and may give a capacity. -/
def layeredHost (capacity : Option Bytes) : Host where
  environment := { capacity, logLevel := some (Utf8.encode "debug") }
  files := layeredFiles
  memory := 0
  processId := "1"

/-- What the file decides there, with a capacity and a level from elsewhere. -/
def layeredSettings (capacity : Nat) (level : String) : Settings where
  buffer := { capacity }
  logging := { file := true, level }
  relay := { flushOnDrain := false }

theorem exists_fileGives_layeredFiles : ∃ file,
    Config.FileGives layeredFiles (some [0x63]) file ∧ layeredSettings 64 "warn" = file.settings := by
  apply Config.readFile_eq_ok_iff.mp
  decide +kernel

theorem gives_layeredHost {capacity : Option Bytes} {given : Option Nat}
    (h : Environment.Given capacity
      (fun text n => Text.Writes (Text.trimChars text.toList) n ∧ n ≤ Text.maxSize) given) :
    (layeredHost capacity).environment.Gives { capacity := given, level := some "debug" } where
  capacity := h
  level := .told ⟨rfl, 'd', by decide, by decide⟩ rfl
  alone := rfl

/-- The environment over the file. -/
theorem settings_above_layeredFiles {file : Layer} (h : layeredSettings 64 "warn" = file.settings)
    (given : Option Nat) :
    (Layer.above { capacity := given, level := some "debug" } file).settings =
      layeredSettings (given.getD 64) "debug" := by
  rw [Layer.settings_above, ← h]
  rfl

/-- The capacity is the one of the arguments, without it the one of the environment, and without
    that the one of the file. -/
theorem settings_precedence_of_layeredHost :
    loadSettings (layeredHost (some [0x31, 0x36])) { config := some [0x63], capacity := some 8 } =
        .ok (layeredSettings 8 "debug") ∧
      loadSettings (layeredHost (some [0x31, 0x36])) { config := some [0x63] } =
        .ok (layeredSettings 16 "debug") ∧
      loadSettings (layeredHost none) { config := some [0x63] } =
        .ok (layeredSettings 64 "debug") := by
  have tells : Environment.Tells (some [0x31, 0x36]) "16" := ⟨rfl, '1', by decide, by decide⟩
  have sixteen : (layeredHost (some [0x31, 0x36])).environment.Gives
      { capacity := some 16, level := some "debug" } :=
    gives_layeredHost (.told tells (Text.readSize_eq_ok_iff.mp rfl))
  have silent : ∀ text, ¬ Environment.Tells none text := by
    intro text h
    cases h.1
  have nothing : (layeredHost none).environment.Gives { level := some "debug" } :=
    gives_layeredHost (.silent silent)
  obtain ⟨file, fileGives, hfile⟩ := exists_fileGives_layeredFiles
  have loads {capacity : Option Bytes} {given top : Option Nat}
      (gives : (layeredHost capacity).environment.Gives
        { capacity := given, level := some "debug" })
      (positive : given.getD 64 ≠ 0) (positive' : top ≠ some 0) :
      loadSettings (layeredHost capacity) { config := some [0x63], capacity := top } =
        .ok (layeredSettings (top.getD (given.getD 64)) "debug") := by
    have below := settings_above_layeredFiles hfile given
    refine ((settings_precedence _ _).1 _).mpr
      ⟨_, file, _, .given, fileGives, gives, ?_, positive', ?_⟩
    · rwa [below]
    · rw [Layer.settings_above, below]
      rfl
  refine ⟨?_, ?_, ?_⟩
  · exact loads sixteen (by decide) (by decide)
  · exact loads sixteen (by decide) (by decide)
  · exact loads nothing (by decide) (by decide)

end Program

end RingRelay
