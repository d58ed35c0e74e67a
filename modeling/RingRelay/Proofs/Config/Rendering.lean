import RingRelay.Proofs.Config.Layer
import Mathlib.Data.Finset.Insert
import Mathlib.Data.List.Perm.Basic
/- Settings written as a table, and read back.

   A table can give some of the settings and leave the others to their defaults, in any order and
   among keys that are not known. There is a default for each setting that is missing in a section,
   and others for each section that is missing in the table; reading back gives the settings that
   were written only if the two agree wherever a section has some of its settings and not others.
   They do (`decode_of_renders`). Nothing is read from a table in which a setting has a value of
   another type, whatever else stands there. -/
namespace RingRelay

open Toml (Value Table)

/-- The groups of settings, which have a section each. -/
inductive Group
  | buffer
  | logging
  | relay
  deriving DecidableEq

def Group.name : Group → String
  | buffer => "buffer"
  | logging => "logging"
  | relay => "relay"

/-- The keys that are known. -/
inductive Key
  | capacity
  | enabled
  | console
  | file
  | level
  | directory
  | flushOnDrain
  deriving DecidableEq

namespace Key

def all : List Key := [capacity, enabled, console, file, level, directory, flushOnDrain]

theorem mem_all (key : Key) : key ∈ all := by
  cases key <;> decide

def name : Key → String
  | capacity => "capacity"
  | enabled => "enabled"
  | console => "console"
  | file => "file"
  | level => "level"
  | directory => "directory"
  | flushOnDrain => "flush_on_drain"

theorem name_injective {key other : Key} (h : key.name = other.name) : key = other := by
  cases key <;> cases other <;> simp [name] at h ⊢

def group : Key → Group
  | capacity => .buffer
  | enabled | console | file | level | directory => .logging
  | flushOnDrain => .relay

/-- The place of the setting in a section that is an array. -/
def place : Key → Nat
  | capacity | enabled | flushOnDrain => 0
  | console => 1
  | file => 2
  | level => 3
  | directory => 4

/-- The value has the type of the key. -/
def Takes : Key → Value → Prop
  | capacity, v => ∃ n : Nat, v = .integer n
  | enabled, v | console, v | file, v | flushOnDrain, v => ∃ b, v = .boolean b
  | level, v | directory, v => ∃ s, v = .string s

end Key

theorem Group.name_injective {group other : Group} (h : group.name = other.name) :
    group = other := by
  cases group <;> cases other <;> simp [name] at h ⊢

/-! ## Layers as values of keys -/

namespace Layer

/-- The value that a layer has for a key. -/
def value? (layer : Layer) : Key → Option Value
  | .capacity => layer.capacity.map fun (n : Nat) => .integer n
  | .enabled => layer.enabled.map .boolean
  | .console => layer.console.map .boolean
  | .file => layer.file.map .boolean
  | .level => layer.level.map .string
  | .directory => layer.directory.map .string
  | .flushOnDrain => layer.flushOnDrain.map .boolean

variable {layer : Layer} {key : Key} {v : Value}

theorem takes_of_value?_eq_some (h : layer.value? key = some v) : key.Takes v := by
  cases key <;> (
    obtain ⟨a, -, rfl⟩ := Option.map_eq_some_iff.mp h
    exact ⟨a, rfl⟩)

/-- The part of a layer that is about some keys. -/
def only (layer : Layer) (keys : Finset Key) : Layer where
  capacity := if .capacity ∈ keys then layer.capacity else none
  enabled := if .enabled ∈ keys then layer.enabled else none
  console := if .console ∈ keys then layer.console else none
  file := if .file ∈ keys then layer.file else none
  level := if .level ∈ keys then layer.level else none
  directory := if .directory ∈ keys then layer.directory else none
  flushOnDrain := if .flushOnDrain ∈ keys then layer.flushOnDrain else none

theorem value?_only (layer : Layer) (keys : Finset Key) (key : Key) :
    (layer.only keys).value? key = if key ∈ keys then layer.value? key else none := by
  cases key <;> simp only [only, value?] <;> split <;> rfl

end Layer

/-- All that settings say. -/
def Settings.layer (settings : Settings) : Layer where
  capacity := some settings.buffer.capacity
  enabled := some settings.logging.enabled
  console := some settings.logging.console
  file := some settings.logging.file
  level := some settings.logging.level
  directory := settings.logging.directory
  flushOnDrain := some settings.relay.flushOnDrain

/-- The keys are enough to tell the settings: all others have their defaults. -/
def Settings.ToldBy (settings : Settings) (keys : Finset Key) : Prop :=
  ∀ key ∉ keys, settings.layer.value? key = ({} : Settings).layer.value? key

theorem Settings.settings_only {settings : Settings} {keys : Finset Key} (h : settings.ToldBy keys) :
    (settings.layer.only keys).settings = settings := by
  have hfield {α : Type} {key : Key} {a default : α} (hdefault : key ∉ keys → a = default) :
      (if key ∈ keys then some a else none).getD default = a := by
    split
    · rfl
    next hkey => exact (hdefault hkey).symm
  have hcapacity (hkey : Key.capacity ∉ keys) : settings.buffer.capacity = 65536 := by
    have : (settings.buffer.capacity : Int) = 65536 := by simpa [Layer.value?, layer] using h _ hkey
    omega
  have henabled (hkey : Key.enabled ∉ keys) : settings.logging.enabled = true := by
    simpa [Layer.value?, layer] using h _ hkey
  have hconsole (hkey : Key.console ∉ keys) : settings.logging.console = true := by
    simpa [Layer.value?, layer] using h _ hkey
  have hfile (hkey : Key.file ∉ keys) : settings.logging.file = false := by
    simpa [Layer.value?, layer] using h _ hkey
  have hlevel (hkey : Key.level ∉ keys) : settings.logging.level = "info" := by
    simpa [Layer.value?, layer] using h _ hkey
  have hdirectory (hkey : Key.directory ∉ keys) : settings.logging.directory = none := by
    simpa [Layer.value?, layer] using h _ hkey
  have hflush (hkey : Key.flushOnDrain ∉ keys) : settings.relay.flushOnDrain = true := by
    simpa [Layer.value?, layer] using h _ hkey
  have hdirectory_eq : (if .directory ∈ keys then settings.logging.directory else none) =
      settings.logging.directory := by
    split
    · rfl
    next hkey => exact (hdirectory hkey).symm
  simp only [Layer.settings, Layer.only, layer, hfield hcapacity, hfield henabled, hfield hconsole,
    hfield hfile, hfield hlevel, hdirectory_eq, hfield hflush]

theorem Option.rel_eq_map_iff {α β : Type} {f : β → α} {x : Option α} {y : Option β} :
    Option.Rel (fun a b => a = f b) x y ↔ x = y.map f := by
  constructor
  · rintro (⟨rfl⟩ | -) <;> rfl
  · rintro rfl
    cases y with
    | none => exact .none
    | some b => exact .some rfl

namespace Toml.Table

variable {table : Table} {layer : Layer}

/-- A table gives the layer that has its values, key by key. -/
theorem gives_iff : table.Gives layer ↔
    (∀ group : Group, table.HasSection group.name) ∧
      ∀ key : Key, table.entry? key.group.name key.name key.place = layer.value? key := by
  constructor
  · intro h
    refine ⟨?_, ?_⟩
    · intro group
      exact h.sections _ (by cases group <;> simp [Group.name])
    · intro key
      cases key with
      | capacity => exact Option.rel_eq_map_iff.mp h.capacity
      | enabled => exact Option.rel_eq_map_iff.mp h.enabled
      | console => exact Option.rel_eq_map_iff.mp h.console
      | file => exact Option.rel_eq_map_iff.mp h.file
      | level => exact Option.rel_eq_map_iff.mp h.level
      | directory => exact Option.rel_eq_map_iff.mp h.directory
      | flushOnDrain => exact Option.rel_eq_map_iff.mp h.flushOnDrain
  · rintro ⟨hsections, hkeys⟩
    exact
      { sections := by
          simp only [List.forall_mem_cons, List.not_mem_nil, false_implies, implies_true, and_true]
          exact ⟨hsections .buffer, hsections .logging, hsections .relay⟩
        capacity := Option.rel_eq_map_iff.mpr (hkeys .capacity)
        enabled := Option.rel_eq_map_iff.mpr (hkeys .enabled)
        console := Option.rel_eq_map_iff.mpr (hkeys .console)
        file := Option.rel_eq_map_iff.mpr (hkeys .file)
        level := Option.rel_eq_map_iff.mpr (hkeys .level)
        directory := Option.rel_eq_map_iff.mpr (hkeys .directory)
        flushOnDrain := Option.rel_eq_map_iff.mpr (hkeys .flushOnDrain) }

/-- If a key has at most one value in a table, it is the one that is found, wherever it stands. -/
theorem get?_eq_of_mem_iff {key : String} {value? : Option Value}
    (h : ∀ v, (key, v) ∈ table ↔ value? = some v) : table.get? key = value? := by
  cases hfound : table.get? key with
  | some v =>
    obtain ⟨before, after, rfl, -⟩ := List.lookup_eq_some_iff.mp hfound
    exact ((h v).mp (by simp)).symm
  | none =>
    cases hvalue : value? with
    | none => rfl
    | some v =>
      have hne := List.lookup_eq_none_iff.mp hfound _ ((h v).mpr hvalue)
      simp at hne

end Toml.Table

/-! ## Writing -/

/-- What the settings say about the keys of a group, with the names of the keys. -/
def Settings.entries (settings : Settings) (keys : Finset Key) (group : Group) : Table :=
  (Key.all.filter fun key => key.group = group ∧ key ∈ keys).filterMap fun key =>
    (settings.layer.value? key).map (key.name, ·)

/-- What stands for a group in a table that gives some keys of settings: a section with its keys in
    any order, and among them others that it does not know, or nothing if none of its keys is to be
    given. -/
inductive Group.Stands (settings : Settings) (keys : Finset Key) (group : Group) : Table → Prop
  | leftOut (none : ∀ key ∈ keys, key.group ≠ group) : Stands settings keys group []
  | written {entries unknown : Table} (perm : entries.Perm (settings.entries keys group ++ unknown))
      (isUnknown : ∀ key : Key, key.group = group → ∀ v, (key.name, v) ∉ unknown) :
      Stands settings keys group [(group.name, .table entries)]

/-- The table gives the settings at some keys and nowhere else, with the sections in any order and
    among keys that are not known. A directory is given only if there is one. -/
inductive Settings.Renders (settings : Settings) (keys : Finset Key) (table : Table) : Prop
  | intro {sections : Group → Table} {unknown : Table}
      (stands : ∀ group : Group, group.Stands settings keys (sections group))
      (isUnknown : ∀ (group : Group) v, (group.name, v) ∉ unknown)
      (perm : table.Perm (sections .buffer ++ sections .logging ++ sections .relay ++ unknown)) :
      Renders settings keys table

variable {settings : Settings} {keys : Finset Key} {table : Table}

theorem Settings.mem_entries_iff {key : Key} {v : Value} :
    (key.name, v) ∈ settings.entries keys key.group ↔
      (if key ∈ keys then settings.layer.value? key else none) = some v := by
  have hmem : (key.name, v) ∈ settings.entries keys key.group ↔
      key ∈ keys ∧ settings.layer.value? key = some v := by
    simp only [entries, List.mem_filterMap, List.mem_filter, Key.mem_all, true_and,
      decide_eq_true_eq, Option.map_eq_some_iff, Prod.mk.injEq]
    constructor
    · rintro ⟨other, ⟨-, hkeys⟩, _, hvalue, hname, rfl⟩
      obtain rfl := Key.name_injective hname
      exact ⟨hkeys, hvalue⟩
    · rintro ⟨hkeys, hvalue⟩
      exact ⟨key, ⟨rfl, hkeys⟩, v, hvalue, rfl, rfl⟩
  rw [hmem]
  split <;> simp_all

theorem Group.Stands.name_eq {group : Group} (h : group.Stands settings keys table) {name : String}
    {v : Value} (hmem : (name, v) ∈ table) : name = group.name := by
  cases h with
  | leftOut => cases hmem
  | written => simp_all

namespace Settings.Renders

/-- A group that is left out is not found, and in one that is written each of its keys is found that
    is to be given, with its value. -/
theorem group_cases (h : settings.Renders keys table) (group : Group) :
    (table.get? group.name = none ∧ ∀ key ∈ keys, key.group ≠ group) ∨
    ∃ entries : Table, table.get? group.name = some (.table entries) ∧
      ∀ key : Key, key.group = group →
        entries.get? key.name = if key ∈ keys then settings.layer.value? key else none := by
  obtain @⟨sections, unknown, hstands, hunknown, hperm⟩ := h
  -- Each section has its own name, and no unknown key has it.
  have hmem (v : Value) : (group.name, v) ∈ table ↔ (group.name, v) ∈ sections group := by
    have hother (other : Group) (hv : (group.name, v) ∈ sections other) :
        (group.name, v) ∈ sections group := by
      obtain rfl := Group.name_injective ((hstands other).name_eq hv)
      exact hv
    rw [hperm.mem_iff]
    simp only [List.mem_append, hunknown, or_false]
    constructor
    · rintro ((hv | hv) | hv)
      · exact hother _ hv
      · exact hother _ hv
      · exact hother _ hv
    · intro hv
      cases group with
      | buffer => exact .inl (.inl hv)
      | logging => exact .inl (.inr hv)
      | relay => exact .inr hv
  generalize hsection : sections group = sectionTable at hmem
  have hstand := hstands group
  rw [hsection] at hstand
  cases hstand with
  | leftOut hnone =>
    refine .inl ⟨?_, hnone⟩
    apply Toml.Table.get?_eq_of_mem_iff
    intro v
    simp [hmem]
  | @written entries unknown hentries hsub =>
    refine .inr ⟨entries, ?_, ?_⟩
    · apply Toml.Table.get?_eq_of_mem_iff
      intro v
      simp [hmem, eq_comm]
    · intro key hgroup
      apply Toml.Table.get?_eq_of_mem_iff
      intro v
      subst hgroup
      rw [hentries.mem_iff, List.mem_append, mem_entries_iff]
      simp [hsub key rfl v]

theorem hasSection (h : settings.Renders keys table) (group : Group) :
    table.HasSection group.name := by
  intro v hv
  obtain ⟨hnone, -⟩ | ⟨entries, hsome, -⟩ := h.group_cases group
  · exact nomatch hnone.symm.trans hv
  · exact .inl ⟨entries, Option.some.inj (hv.symm.trans hsome)⟩

theorem entry?_eq (h : settings.Renders keys table) (key : Key) :
    table.entry? key.group.name key.name key.place =
      if key ∈ keys then settings.layer.value? key else none := by
  unfold Toml.Table.entry?
  obtain ⟨hnone, hkeys⟩ | ⟨entries, hsome, hentries⟩ := h.group_cases key.group
  · rw [hnone, if_neg fun hkey => hkeys key hkey rfl]
  · rw [hsome]
    exact hentries key rfl

/-- The table gives the part of the settings that is about the keys. -/
theorem gives (h : settings.Renders keys table) : table.Gives (settings.layer.only keys) := by
  rw [Toml.Table.gives_iff]
  refine ⟨h.hasSection, ?_⟩
  intro key
  rw [h.entry?_eq, Layer.value?_only]

end Settings.Renders

/-! ## Values of another type -/

/-- The value can be a section. -/
def Toml.Value.IsSection (v : Value) : Prop :=
  (∃ entries, v = .table entries) ∨ (∃ items, v = .array items) ∨ ∃ literal, v = .moment literal

theorem Settings.exists_error_of_not_gives (h : ∀ layer, ¬ table.Gives layer) :
    ∃ error, Settings.decode table = .error error := by
  cases hdecode : Settings.decode table with
  | error error => exact ⟨error, rfl⟩
  | ok settings =>
    obtain ⟨layer, hgives, -⟩ := Settings.decode_eq_ok_iff.mp hdecode
    exact absurd hgives (h layer)

/-- However some keys of settings are written, reading gives the settings back, if all other keys
    have their defaults. Each known key can be given or left to its default, without regard to the
    others. A table in which a known key has a value of another type, or the capacity is negative,
    gives no settings, whatever else it has, and no more does one in which a section is something
    that cannot be one. -/
theorem decode_of_renders :
    (∀ (settings : Settings) (keys : Finset Key) (table : Table), settings.ToldBy keys →
      settings.Renders keys table → Settings.decode table = .ok settings) ∧
    (∀ (table : Table) (key : Key) (v : Value),
      table.entry? key.group.name key.name key.place = some v → ¬ key.Takes v →
        ∃ error, Settings.decode table = .error error) ∧
    (∀ (table : Table) (group : Group) (v : Value), table.get? group.name = some v →
      ¬ v.IsSection → ∃ error, Settings.decode table = .error error) := by
  refine ⟨?_, ?_, ?_⟩
  · intro settings keys table htold hrenders
    exact Settings.decode_eq_ok_iff.mpr ⟨_, hrenders.gives, (Settings.settings_only htold).symm⟩
  · intro table key v hentry hv
    apply Settings.exists_error_of_not_gives
    intro layer hgives
    have hvalue := (Toml.Table.gives_iff.mp hgives).2 key
    rw [hentry] at hvalue
    exact hv (Layer.takes_of_value?_eq_some hvalue.symm)
  · intro table group v hget hv
    apply Settings.exists_error_of_not_gives
    intro layer hgives
    exact hv ((Toml.Table.gives_iff.mp hgives).1 group v hget)

/-- Settings of which some are not the defaults. -/
def debugSettings : Settings where
  buffer := { capacity := 512 }
  logging := { level := "debug", directory := some "logs" }
  relay := { flushOnDrain := false }

/-- The keys of these and one more. -/
def debugKeys : Finset Key := {.capacity, .console, .level, .directory, .flushOnDrain}

/-- The section of the log with its keys backwards, behind one that it does not know. -/
def debugLogging : Table :=
  [("capacity", .float "inf"), ("directory", .string "logs"), ("level", .string "debug"),
    ("console", .boolean true)]

/-- The sections backwards, behind a key that is known only inside one of them. -/
def debugTable : Table :=
  [("capacity", .integer (-1)), ("relay", .table [("flush_on_drain", .boolean false)]),
    ("logging", .table debugLogging), ("buffer", .table [("capacity", .integer 512)])]

def debugSections : Group → Table
  | .buffer => [("buffer", .table [("capacity", .integer 512)])]
  | .logging => [("logging", .table debugLogging)]
  | .relay => [("relay", .table [("flush_on_drain", .boolean false)])]

/-- They are read back from there, but not behind a negative capacity without a name, and not behind
    a section that is a text. -/
theorem decode_of_renders_debugTable :
    debugSettings.ToldBy debugKeys ∧ debugSettings.Renders debugKeys debugTable ∧
      Settings.decode debugTable = .ok debugSettings ∧
      (∃ error, Settings.decode (("buffer", .array [.integer (-1)]) :: debugTable) =
        .error error) ∧
      (∃ error, Settings.decode (("logging", .string "debug") :: debugTable) = .error error) := by
  have htold : debugSettings.ToldBy debugKeys := by
    intro key hkey
    cases key with
    | enabled => rfl
    | file => rfl
    | capacity | console | level | directory | flushOnDrain => exact absurd (by decide) hkey
  have hlogging : (debugSettings.entries debugKeys .logging ++
      [("capacity", Value.float "inf")]).reverse = debugLogging := rfl
  have hrenders : debugSettings.Renders debugKeys debugTable := by
    have hstands (group : Group) :
        group.Stands debugSettings debugKeys (debugSections group) := by
      cases group with
      | buffer => exact .written (.refl _) (by simp)
      | relay => exact .written (.refl _) (by simp)
      | logging =>
        refine .written (hlogging ▸ List.reverse_perm _) ?_
        intro key hkey
        cases key <;> simp [Key.group, Key.name] at hkey ⊢
    have hunknown (group : Group) (v : Value) :
        (group.name, v) ∉ [("capacity", Value.integer (-1))] := by
      cases group <;> simp [Group.name]
    exact .intro hstands hunknown (List.reverse_perm debugTable.reverse)
  obtain ⟨hread, hvalue, hsection⟩ := decode_of_renders
  refine ⟨htold, hrenders, hread _ _ _ htold hrenders, ?_, ?_⟩
  · refine hvalue _ .capacity (.integer (-1)) rfl ?_
    simp [Key.Takes]
  · refine hsection _ .logging (.string "debug") rfl ?_
    simp [Toml.Value.IsSection]

end RingRelay
