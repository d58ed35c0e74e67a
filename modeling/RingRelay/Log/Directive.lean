import RingRelay.Log.Event
import RingRelay.Pattern.Check
import RingRelay.Text.Alphanumeric
import RingRelay.Text.Decimal
/- Log directives: which events to let through, as a text.

   A directive is a level alone, a target alone, or a target and a level with an equals sign between
   them. Behind the target, brackets may name a span and, in braces, a field with or without a
   value, which is a number or a pattern. Without a level everything is let through. -/
namespace RingRelay

/-- Up to which level events are let through. -/
inductive Verbosity
  | off
  | upTo (level : Level)
  deriving DecidableEq, Repr

namespace Verbosity

def rank : Verbosity → Nat
  | off => 0
  | upTo level => level.rank

/-- The verbosities by their rank. -/
def ofRank? : Nat → Option Verbosity
  | 0 => some .off
  | 1 => some (.upTo .error)
  | 2 => some (.upTo .warn)
  | 3 => some (.upTo .info)
  | 4 => some (.upTo .debug)
  | 5 => some (.upTo .trace)
  | _ => none

/-- The verbosity with a name, in which upper and lower case make no difference. -/
def ofName? (name : String) : Option Verbosity :=
  match String.ofList (name.toList.map Char.toLower) with
  | "off" => some .off
  | "error" => some (.upTo .error)
  | "warn" => some (.upTo .warn)
  | "info" => some (.upTo .info)
  | "debug" => some (.upTo .debug)
  | "trace" => some (.upTo .trace)
  | _ => none

/-- The verbosity that a text writes, by its rank or its name. -/
def read? (text : String) : Option Verbosity :=
  match Text.readSize text.toList with
  | .ok n => ofRank? n
  | .error _ => ofName? text

end Verbosity

structure Directive where
  target : Option String := none
  /-- The name of the span in which events must happen. -/
  span : Option String := none
  /-- The fields that events must have, some with a value. -/
  fields : List (String × Option String) := []
  verbosity : Verbosity := .upTo .trace
  deriving DecidableEq, Repr

/-- Why a text is no directive. -/
inductive DirectiveFault
  | malformed
  | badLevel
  /-- The value of a field is a pattern that cannot be used. -/
  | badField (fault : PatternFault)
  deriving DecidableEq, Repr

def DirectiveFault.message : DirectiveFault → String
  | .malformed => "invalid filter directive"
  | .badLevel =>
    "error parsing level filter: expected one of \"off\", \"error\", \"warn\", \"info\", " ++
    "\"debug\", \"trace\", or a number 0-5"
  | .badField fault => "invalid field filter: " ++ fault.message

namespace Directive

/-- Where the reading of a directive stands. The numbers are places in the text. -/
inductive Reading
  | start
  | targetOrLevel
  | span (first : Nat)
  | field (first : Nat)
  | behindFields
  | behindSpan
  | level (first : Nat)

/-- The characters of a text from one place up to another. -/
def piece (text : List Char) (first stop : Nat) : String :=
  String.ofList ((text.drop first).take (stop - first))

/-- The pieces of a text between separators. -/
def cut (separator : Char) (text : String) : List String :=
  (text.toList.splitOn separator).map String.ofList

/-- Why a text cannot be the value of a field, if it cannot: what is no number is a pattern. -/
def valueFault? (text : String) : Option PatternFault :=
  if Text.isNumber text.toList then none else Pattern.fault? text.toList

/-- A field that events must have: a name, and perhaps a value behind an equals sign. -/
def field? (text : String) : Except DirectiveFault (String × Option String) :=
  match cut '=' text with
  | [] => .error .malformed
  | [""] => .error .malformed
  | [name] => .ok (name, none)
  | name :: value :: _ =>
    match valueFault? value with
    | none => .ok (name, some value)
    | some fault => .error (.badField fault)

/-- A character with which a target or a level can begin. -/
def canBegin (c : Char) : Bool := c == '-' || c == ':' || c == '_' || Text.isAlphanumeric c

/-- Reads one more character, which is at the place `i`. -/
def step (text : List Char) (reading : Reading) (d : Directive) (i : Nat) (c : Char) :
    Except DirectiveFault (Reading × Directive) :=
  match reading with
  | .start =>
    if c = '[' then .ok (.span (i + 1), d)
    else if canBegin c then .ok (.targetOrLevel, d)
    else .error .malformed
  | .targetOrLevel =>
    if c = '=' then .ok (.level (i + 1), { d with target := some (piece text 0 i) })
    else if c = '[' then .ok (.span (i + 1), { d with target := some (piece text 0 i) })
    else .ok (.targetOrLevel, d)
  | .span first =>
    if c = ']' then .ok (.behindSpan, { d with span := some (piece text first i) })
    else if c = '\x7b' then
      let name := piece text first i
      .ok (.field (i + 1), { d with span := if name.isEmpty then none else some name })
    else .ok (.span first, d)
  | .field first =>
    if c = '\x7d' then do
      let field ← field? (piece text first i)
      return (.behindFields, { d with fields := d.fields ++ [field] })
    else .ok (.field first, d)
  | .behindFields => if c = ']' then .ok (.behindSpan, d) else .error .malformed
  | .behindSpan => if c = '=' then .ok (.level (i + 1), d) else .error .malformed
  | .level first => .ok (.level first, d)

/-- Reads characters up to the end, the first of them at the place `i`, and gives what was read. -/
def readFrom (text : List Char) (reading : Reading) (d : Directive) (i : Nat) :
    List Char → Except DirectiveFault Directive
  | [] =>
    match reading with
    | .targetOrLevel =>
      match Verbosity.read? (String.ofList text) with
      | some verbosity => .ok { d with verbosity }
      | none => .ok { d with target := some (String.ofList text) }
    | .level first =>
      match text.drop first with
      | [] => .ok d
      | rest =>
        match Verbosity.read? (String.ofList rest) with
        | some verbosity => .ok { d with verbosity }
        | none => .error .badLevel
    | .behindSpan => .ok d
    | _ => .error .malformed
  | c :: cs => do
    let (reading, d) ← step text reading d i c
    readFrom text reading d (i + 1) cs

end Directive

end RingRelay
