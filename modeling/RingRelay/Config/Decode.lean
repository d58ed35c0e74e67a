import RingRelay.Config.Settings
import RingRelay.Toml.Value
/- Settings from a TOML table.

   The table has a section for each group of settings and a section a key for each setting. What is
   missing has its default and unknown keys are passed over, but a known key with a value of another
   type is an error. A section may also be an array of its settings in their order, of which any
   number may be missing at the end, and what is behind the last is passed over. A date or time in
   the place of a section counts as a table without any known key. -/
namespace RingRelay

/-- Why a table gives no settings. -/
inductive DecodeError
  /-- The value of the key has the wrong type. -/
  | wrongType (key : String)
  /-- The value of the key is a negative number where a size is wanted. -/
  | negative (key : String)
  deriving DecidableEq, Repr

namespace Decode

open Toml (Value Table)

def boolean (key : String) : Value → Except DecodeError Bool
  | .boolean b => .ok b
  | _ => .error (.wrongType key)

def text (key : String) : Value → Except DecodeError String
  | .string s => .ok s
  | _ => .error (.wrongType key)

def size (key : String) : Value → Except DecodeError Nat
  | .integer n => if n < 0 then .error (.negative key) else .ok n.toNat
  | _ => .error (.wrongType key)

/-- The values that a section gives to keys: by name in a table, by place in an array. -/
inductive Section
  | named (table : Table)
  | placed (items : List Value)

def Section.of (key : String) : Value → Except DecodeError Section
  | .table entries => .ok (.named entries)
  | .array items => .ok (.placed items)
  | .moment _ => .ok (.named [])
  | _ => .error (.wrongType key)

/-- The value of the setting with a name and a place. -/
def Section.get? (s : Section) (key : String) (place : Nat) : Option Value :=
  match s with
  | .named table => table.get? key
  | .placed items => items[place]?

/-- A setting that has a default. -/
def Section.setting {α : Type} (s : Section) (key : String) (place : Nat)
    (decode : String → Value → Except DecodeError α) (default : α) : Except DecodeError α :=
  match s.get? key place with
  | none => .ok default
  | some v => decode key v

/-- The group of settings that a section of the whole table gives. -/
def group {α : Type} (table : Table) (key : String) (decode : Section → Except DecodeError α)
    (default : α) : Except DecodeError α :=
  match table.get? key with
  | none => .ok default
  | some v => Section.of key v >>= decode

def buffer (s : Section) : Except DecodeError BufferSettings := do
  let capacity ← s.setting "capacity" 0 size ({} : BufferSettings).capacity
  return { capacity }

def logging (s : Section) : Except DecodeError LoggingSettings := do
  let default : LoggingSettings := {}
  let enabled ← s.setting "enabled" 0 boolean default.enabled
  let console ← s.setting "console" 1 boolean default.console
  let file ← s.setting "file" 2 boolean default.file
  let level ← s.setting "level" 3 text default.level
  let directory ← s.setting "directory" 4 (fun key v => some <$> text key v) default.directory
  return { enabled, console, file, level, directory }

def relay (s : Section) : Except DecodeError RelayOptions := do
  let flushOnDrain ← s.setting "flush_on_drain" 0 boolean ({} : RelayOptions).flushOnDrain
  return { flushOnDrain }

end Decode

/-- The settings that a table gives. -/
def Settings.decode (table : Toml.Table) : Except DecodeError Settings := do
  let buffer ← Decode.group table "buffer" Decode.buffer {}
  let logging ← Decode.group table "logging" Decode.logging {}
  let relay ← Decode.group table "relay" Decode.relay {}
  return { buffer, logging, relay }

end RingRelay
