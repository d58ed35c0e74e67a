import RingRelay.Config.Decode
import Mathlib.Tactic.Common
/- Layers of settings.

   A source of settings says something about some of them and nothing about the others. What it says
   is a layer; layers are put over each other setting by setting, and what no layer says has its
   default. What a table says is described key by key, without the order in which the keys are read:
   decoding gives the settings of that layer, and fails if there is no such layer. -/
namespace RingRelay

/-- What one source says about the settings, and nothing where it says nothing. -/
structure Layer where
  capacity : Option Nat := none
  enabled : Option Bool := none
  console : Option Bool := none
  file : Option Bool := none
  level : Option String := none
  directory : Option String := none
  flushOnDrain : Option Bool := none

namespace Layer

/-- One layer over another: what the upper one does not say is left to the lower one. -/
def above (upper lower : Layer) : Layer where
  capacity := upper.capacity.or lower.capacity
  enabled := upper.enabled.or lower.enabled
  console := upper.console.or lower.console
  file := upper.file.or lower.file
  level := upper.level.or lower.level
  directory := upper.directory.or lower.directory
  flushOnDrain := upper.flushOnDrain.or lower.flushOnDrain

/-- The settings of a layer with nothing but the defaults below it. -/
def settings (layer : Layer) : Settings where
  buffer := { capacity := layer.capacity.getD 65536 }
  logging :=
    { enabled := layer.enabled.getD true
      console := layer.console.getD true
      file := layer.file.getD false
      level := layer.level.getD "info"
      directory := layer.directory }
  relay := { flushOnDrain := layer.flushOnDrain.getD true }

/-- What the upper layer does not say is as the lower one has it, defaults included. -/
theorem settings_above (upper lower : Layer) : (upper.above lower).settings =
    { buffer := { capacity := upper.capacity.getD lower.settings.buffer.capacity }
      logging :=
        { enabled := upper.enabled.getD lower.settings.logging.enabled
          console := upper.console.getD lower.settings.logging.console
          file := upper.file.getD lower.settings.logging.file
          level := upper.level.getD lower.settings.logging.level
          directory := upper.directory.or lower.settings.logging.directory }
      relay := { flushOnDrain := upper.flushOnDrain.getD lower.settings.relay.flushOnDrain } } := by
  simp only [settings, above, Option.getD_or]

end Layer

/-! ## What a table says -/

namespace Toml.Table

/-- The value of a setting in a section, which may be a table with the key or an array with a value
    at the place. -/
def entry? (table : Table) (name key : String) (place : Nat) : Option Value :=
  match table.get? name with
  | some (.table entries) => Table.get? entries key
  | some (.array items) => items[place]?
  | _ => none

/-- If there is a value with the name, it is one that can be a section. -/
def HasSection (table : Table) (name : String) : Prop :=
  ∀ v, table.get? name = some v →
    (∃ entries, v = .table entries) ∨ (∃ items, v = .array items) ∨ ∃ literal, v = .moment literal

/-- The table says what is in the layer, and no more: each setting is there with a value of its
    type, or is not there at all. -/
structure Gives (table : Table) (layer : Layer) : Prop where
  sections : ∀ name ∈ ["buffer", "logging", "relay"], table.HasSection name
  capacity : Option.Rel (fun v (n : Nat) => v = .integer n)
    (table.entry? "buffer" "capacity" 0) layer.capacity
  enabled : Option.Rel (fun v b => v = .boolean b)
    (table.entry? "logging" "enabled" 0) layer.enabled
  console : Option.Rel (fun v b => v = .boolean b)
    (table.entry? "logging" "console" 1) layer.console
  file : Option.Rel (fun v b => v = .boolean b)
    (table.entry? "logging" "file" 2) layer.file
  level : Option.Rel (fun v s => v = .string s)
    (table.entry? "logging" "level" 3) layer.level
  directory : Option.Rel (fun v s => v = .string s)
    (table.entry? "logging" "directory" 4) layer.directory
  flushOnDrain : Option.Rel (fun v b => v = .boolean b)
    (table.entry? "relay" "flush_on_drain" 0) layer.flushOnDrain

end Toml.Table

theorem Except.bind_eq_ok_iff {ε α β : Type} {x : Except ε α} {f : α → Except ε β} {b : β} :
    x >>= f = .ok b ↔ ∃ a, x = .ok a ∧ f a = .ok b := by
  cases x <;> simp [bind, Except.bind]

/-- What is read from a value that may be missing, with a default. -/
theorem Option.exists_rel_getD_iff {α β : Type} {reads : α → β → Prop} {value : Option α}
    {default b : β} : (∃ said, Option.Rel reads value said ∧ b = said.getD default) ↔
      match value with
      | none => b = default
      | some a => reads a b := by
  cases value with
  | none =>
    constructor
    · rintro ⟨_, ⟨⟩, rfl⟩
      rfl
    · rintro rfl
      exact ⟨none, .none, rfl⟩
  | some a =>
    constructor
    · rintro ⟨_, ⟨read⟩, rfl⟩
      exact read
    · intro read
      exact ⟨some b, .some read, rfl⟩

namespace Decode

open Toml (Value Table)

variable {α β : Type} {key : String} {place : Nat} {v : Value} {table : Table}

/-! ## Single values -/

theorem boolean_eq_ok_iff {b : Bool} : boolean key v = .ok b ↔ v = .boolean b := by
  cases v <;> simp [boolean]

theorem text_eq_ok_iff {s : String} : text key v = .ok s ↔ v = .string s := by
  cases v <;> simp [text]

theorem size_eq_ok_iff {n : Nat} : size key v = .ok n ↔ v = .integer n := by
  cases v <;> simp [size]
  next i => split <;> simp <;> omega

theorem some_text_eq_ok_iff {o : Option String} :
    (some <$> text key v : Except DecodeError (Option String)) = .ok o ↔
      ∃ s, v = .string s ∧ o = some s := by
  cases v <;> simp [text, Functor.map, Except.map, eq_comm]

/-! ## Settings with defaults -/

theorem setting_eq_ok_iff {s : Section} {decode : String → Value → Except DecodeError α}
    {reads : Value → α → Prop} (decode_iff : ∀ v a, decode key v = .ok a ↔ reads v a)
    {default a : α} : s.setting key place decode default = .ok a ↔
      ∃ said, Option.Rel reads (s.get? key place) said ∧ a = said.getD default := by
  rw [Section.setting, Option.exists_rel_getD_iff]
  cases s.get? key place with
  | none => exact ⟨fun h => (Except.ok.inj h).symm, fun h => h ▸ rfl⟩
  | some v => exact decode_iff v a

theorem setting_bind_eq_ok_iff {s : Section} {decode : String → Value → Except DecodeError α}
    {reads : Value → α → Prop} (decode_iff : ∀ v a, decode key v = .ok a ↔ reads v a)
    {default : α} {f : α → Except DecodeError β} {b : β} :
    s.setting key place decode default >>= f = .ok b ↔
      ∃ said, Option.Rel reads (s.get? key place) said ∧ f (said.getD default) = .ok b := by
  rw [Except.bind_eq_ok_iff]
  constructor
  · rintro ⟨_, set, more⟩
    obtain ⟨said, read, rfl⟩ := (setting_eq_ok_iff decode_iff).mp set
    exact ⟨said, read, more⟩
  · rintro ⟨said, read, more⟩
    exact ⟨_, (setting_eq_ok_iff decode_iff).mpr ⟨said, read, rfl⟩, more⟩

/-- A setting that need not be there at all. -/
theorem setting_text_eq_ok_iff {s : Section} {o : Option String} :
    s.setting key place (fun key v => some <$> text key v) none = .ok o ↔
      Option.Rel (fun v s => v = .string s) (s.get? key place) o := by
  rw [setting_eq_ok_iff fun v o => some_text_eq_ok_iff]
  generalize s.get? key place = value
  constructor
  · rintro ⟨_, ⟨t, rfl, rfl⟩ | -, rfl⟩
    · exact .some rfl
    · exact .none
  · intro h
    cases h with
    | none => exact ⟨none, .none, rfl⟩
    | some read => exact ⟨some (some _), .some ⟨_, read, rfl⟩, rfl⟩

/-! ## Sections -/

/-- The section with a name, which is empty if there is none or a moment in its place. -/
def sectionAt (table : Table) (name : String) : Section :=
  match table.get? name with
  | some (.table entries) => .named entries
  | some (.array items) => .placed items
  | _ => .named []

theorem get?_sectionAt {name : String} :
    (sectionAt table name).get? key place = table.entry? name key place := by
  unfold sectionAt Toml.Table.entry?
  split <;> rfl

/-- A section whose defaults are those of the whole group need not be there. -/
theorem group_eq_ok_iff {name : String} {decode : Section → Except DecodeError α} {default a : α}
    (decode_empty : decode (.named []) = .ok default) :
    group table name decode default = .ok a ↔
      table.HasSection name ∧ decode (sectionAt table name) = .ok a := by
  unfold group sectionAt Toml.Table.HasSection
  cases table.get? name with
  | none => simp [decode_empty]
  | some v => cases v <;> simp [Section.of, bind, Except.bind]

theorem buffer_eq_ok_iff {s : Section} {settings : BufferSettings} :
    buffer s = .ok settings ↔
      ∃ capacity, Option.Rel (fun v (n : Nat) => v = .integer n) (s.get? "capacity" 0) capacity ∧
        { capacity := capacity.getD 65536 } = settings := by
  simp only [buffer, setting_bind_eq_ok_iff fun v n => size_eq_ok_iff, pure, Except.pure,
    Except.ok.injEq]

theorem relay_eq_ok_iff {s : Section} {options : RelayOptions} :
    relay s = .ok options ↔
      ∃ flushOnDrain,
        Option.Rel (fun v b => v = .boolean b) (s.get? "flush_on_drain" 0) flushOnDrain ∧
          { flushOnDrain := flushOnDrain.getD true } = options := by
  simp only [relay, setting_bind_eq_ok_iff fun v b => boolean_eq_ok_iff, pure, Except.pure,
    Except.ok.injEq]

theorem logging_eq_ok_iff {s : Section} {settings : LoggingSettings} :
    logging s = .ok settings ↔
      ∃ enabled, Option.Rel (fun v b => v = .boolean b) (s.get? "enabled" 0) enabled ∧
      ∃ console, Option.Rel (fun v b => v = .boolean b) (s.get? "console" 1) console ∧
      ∃ file, Option.Rel (fun v b => v = .boolean b) (s.get? "file" 2) file ∧
      ∃ level, Option.Rel (fun v t => v = .string t) (s.get? "level" 3) level ∧
      ∃ directory, Option.Rel (fun v t => v = .string t) (s.get? "directory" 4) directory ∧
        { enabled := enabled.getD true, console := console.getD true, file := file.getD false,
          level := level.getD "info", directory } = settings := by
  simp only [logging, setting_bind_eq_ok_iff fun v b => boolean_eq_ok_iff,
    setting_bind_eq_ok_iff fun v t => text_eq_ok_iff, Except.bind_eq_ok_iff, setting_text_eq_ok_iff,
    pure, Except.pure, Except.ok.injEq]

end Decode

/-- A table decodes to the settings of the layer that it gives, and to none if it gives no layer. -/
theorem Settings.decode_eq_ok_iff {table : Toml.Table} {settings : Settings} :
    Settings.decode table = .ok settings ↔
      ∃ layer, table.Gives layer ∧ settings = layer.settings := by
  simp only [Settings.decode, Except.bind_eq_ok_iff,
    Decode.group_eq_ok_iff (show Decode.buffer (.named []) = .ok {} from rfl),
    Decode.group_eq_ok_iff (show Decode.logging (.named []) = .ok {} from rfl),
    Decode.group_eq_ok_iff (show Decode.relay (.named []) = .ok {} from rfl),
    Decode.buffer_eq_ok_iff, Decode.logging_eq_ok_iff, Decode.relay_eq_ok_iff,
    Decode.get?_sectionAt, pure, Except.pure, Except.ok.injEq]
  constructor
  · rintro ⟨_, ⟨inBuffer, capacity, readCapacity, rfl⟩, _, ⟨inLogging, enabled, readEnabled,
      console, readConsole, file, readFile, level, readLevel, directory, readDirectory, rfl⟩, _,
      ⟨inRelay, flushOnDrain, readFlush, rfl⟩, rfl⟩
    exact ⟨⟨capacity, enabled, console, file, level, directory, flushOnDrain⟩,
      { sections := by simp [inBuffer, inLogging, inRelay]
        capacity := readCapacity
        enabled := readEnabled
        console := readConsole
        file := readFile
        level := readLevel
        directory := readDirectory
        flushOnDrain := readFlush }, rfl⟩
  · rintro ⟨layer, gives, rfl⟩
    have inSection := gives.sections
    simp only [List.forall_mem_cons, List.not_mem_nil, false_implies, implies_true, and_true]
      at inSection
    obtain ⟨inBuffer, inLogging, inRelay⟩ := inSection
    exact ⟨_, ⟨inBuffer, _, gives.capacity, rfl⟩, _, ⟨inLogging, _, gives.enabled, _,
      gives.console, _, gives.file, _, gives.level, _, gives.directory, rfl⟩, _,
      ⟨inRelay, _, gives.flushOnDrain, rfl⟩, rfl⟩

end RingRelay
