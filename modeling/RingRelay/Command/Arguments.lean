import RingRelay.Files.Path
import RingRelay.Text.Decimal
/- The arguments of the command line.

   An option with a value is one argument `--name=value` or two, `--name` and the value; in the
   second form the value must not begin with a dash, unless it is a dash alone. Options may come in
   any order but each only once, and there are no arguments without a name. The arguments are looked
   at from left to right. A value of its own is judged when the next option, or the end, shows that
   it is complete; what cannot be an argument at all is refused at once. -/
namespace RingRelay

/-- What the arguments say. -/
structure Arguments where
  config : Option Path := none
  capacity : Option Nat := none
  input : Option Path := none
  output : Option Path := none
  noFlush : Bool := false
  deriving DecidableEq, Repr

namespace Arguments

/-- The options that have a value. -/
inductive ValueOption
  | config
  | capacity
  | input
  | output
  deriving DecidableEq, Repr

def ValueOption.name : ValueOption → String
  | config => "config"
  | capacity => "capacity"
  | input => "input"
  | output => "output"

/-- The options that have none. -/
inductive Flag
  | noFlush
  | help
  | version
  deriving DecidableEq, Repr

def Flag.name : Flag → String
  | noFlush => "no-flush"
  | help => "help"
  | version => "version"

/-- Why there is nothing to run: the help or the version was asked for, or the arguments are wrong.
    -/
inductive Stop
  | help
  | version
  | unknownArgument
  /-- An option has no value, or an empty one where a path is wanted. -/
  | missingValue
  | badNumber (fault : Text.NumberFault)
  /-- A number is not even text. -/
  | notText
  | repeated
  /-- A flag has a value. -/
  | unexpectedValue
  deriving DecidableEq, Repr

namespace Stop

/-- The exit code when the program stops for this reason. -/
def exitCode : Stop → Nat
  | help => 0
  | version => 0
  | _ => 2

/-- What is wrong, in a few words. -/
def message : Stop → String
  | help => "help was asked for"
  | version => "the version was asked for"
  | unknownArgument => "unexpected argument"
  | missingValue => "a value is required for an option but none was supplied"
  | badNumber fault => s!"invalid value for '--capacity <CAPACITY>': {fault.message}"
  | notText => "invalid UTF-8 was detected in an argument"
  | repeated => "an option cannot be used multiple times"
  | unexpectedValue => "unexpected value for an option"

end Stop

/-- The option with a name. -/
def valueOption? (name : Bytes) : Option ValueOption :=
  [ValueOption.config, .capacity, .input, .output].find? fun o => Utf8.encode o.name == name

/-- The flag with a name. -/
def flag? (name : Bytes) : Option Flag :=
  [Flag.noFlush, .help, .version].find? fun f => Utf8.encode f.name == name

def dash : UInt8 := 0x2d

def equalsSign : UInt8 := 0x3d

/-- What an argument looks like. -/
inductive Shape
  /-- Two dashes: only arguments without names may follow. -/
  | separator
  /-- Two dashes with a name, and perhaps a value behind an equals sign. -/
  | long (name : Bytes) (value : Option Bytes)
  /-- One dash with letters behind it. -/
  | short (letters : Bytes)
  | plain

def Shape.of : Bytes → Shape
  | a :: b :: rest =>
    if a = dash then
      if b = dash then
        if rest.isEmpty then .separator
        else
          let name := rest.takeWhile (· != equalsSign)
          .long name ((rest.drop name.length).tail?)
      else .short (b :: rest)
    else .plain
  | _ => .plain

/-- The arguments before the one that is looked at: what they say, and an option that still waits
    for its value or whose value has not been judged yet. -/
structure Progress where
  said : Arguments
  pending : Option (ValueOption × Option Bytes) := none

/-- A path, which must not be empty. -/
def path (value : Bytes) : Except Stop Path :=
  if value.isEmpty then .error .missingValue else .ok value

/-- A size in decimal digits. -/
def size (value : Bytes) : Except Stop Nat :=
  match Utf8.decode? value with
  | none => .error .notText
  | some cs =>
    match Text.readSize cs with
    | .ok n => .ok n
    | .error fault => .error (.badNumber fault)

/-- Sets what was not set before. -/
def once {α : Type} (old : Option α) (new : Except Stop α) : Except Stop (Option α) :=
  match old with
  | some _ => .error .repeated
  | none => some <$> new

/-- The arguments with the value of one more option. -/
def assign (said : Arguments) (option : ValueOption) (value : Bytes) : Except Stop Arguments :=
  match option with
  | .config => do return { said with config := ← once said.config (path value) }
  | .capacity => do return { said with capacity := ← once said.capacity (size value) }
  | .input => do return { said with input := ← once said.input (path value) }
  | .output => do return { said with output := ← once said.output (path value) }

/-- The arguments with one more flag. -/
def raise (said : Arguments) : Flag → Except Stop Arguments
  | .help => .error .help
  | .version => .error .version
  | .noFlush => if said.noFlush then .error .repeated else .ok { said with noFlush := true }

/-- Judges the option that is pending. -/
def Progress.settle (p : Progress) : Except Stop Arguments :=
  match p.pending with
  | none => .ok p.said
  | some (_, none) => .error .missingValue
  | some (option, some value) => p.said.assign option value

/-- Looks at an argument that begins with two dashes and a name. -/
def Progress.named (p : Progress) (name : Bytes) (value : Option Bytes) : Except Stop Progress :=
  match valueOption? name, flag? name, value with
  | some option, _, some value => do return { said := ← (← p.settle).assign option value }
  | some option, _, none => do return { said := ← p.settle, pending := some (option, none) }
  | none, some _, some _ => .error .unexpectedValue
  | none, some flag, none => do return { said := ← (← p.settle).raise flag }
  | none, none, _ => .error .unknownArgument

/-- Looks at an argument that begins with one dash: its first letter tells what it is. -/
def Progress.lettered (p : Progress) (letters : Bytes) : Except Stop Progress :=
  match letters.head?.map (Char.ofNat ·.toNat) with
  | some 'h' => do return { said := ← (← p.settle).raise .help }
  | some 'V' => do return { said := ← (← p.settle).raise .version }
  | _ => .error .unknownArgument

/-- Looks at an argument without a name, which can only be the value of the option before it. -/
def Progress.plain (p : Progress) (arg : Bytes) : Except Stop Progress :=
  match p.pending with
  | some (option, none) => .ok { p with pending := some (option, some arg) }
  | _ => .error .unknownArgument

/-- Looks at all arguments that are left. -/
def Progress.finish : Progress → List Bytes → Except Stop Arguments
  | p, [] => p.settle
  | p, arg :: rest =>
    match Shape.of arg with
    | .separator => if rest.isEmpty then p.settle else .error .unknownArgument
    | .long name value => do finish (← p.named name value) rest
    | .short letters => do finish (← p.lettered letters) rest
    | .plain => do finish (← p.plain arg) rest

/-- What the arguments behind the name of the program say. -/
def parse (args : List Bytes) : Except Stop Arguments := Progress.finish { said := {} } args

/-- The text that tells how to use the program. -/
def helpText : String :=
  "Relay a byte stream through a fixed-capacity ring buffer\n" ++
  "\n" ++
  "Usage: bytering [OPTIONS]\n" ++
  "\n" ++
  "Options:\n" ++
  "      --config <CONFIG>      Config file to load instead of ~/.bytering/config.toml or " ++
  "./bytering.toml\n" ++
  "      --capacity <CAPACITY>  Ring capacity in bytes; overrides config and BYTERING_CAPACITY\n" ++
  "      --input <INPUT>        Read from this file instead of stdin\n" ++
  "      --output <OUTPUT>      Write to this file instead of stdout\n" ++
  "      --no-flush             Skip flushing the output each time the ring drains\n" ++
  "  -h, --help                 Print help\n" ++
  "  -V, --version              Print version\n"

/-- The name of the program with its version. -/
def versionText : String := "bytering 0.1.0\n"

end Arguments

end RingRelay
