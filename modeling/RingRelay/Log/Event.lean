import RingRelay.Relay.Basic
/- The events that a ring, a relay and the program report, and how each is written as a log line.

   An event is one of a fixed set of happenings with its figures. Its level, its target, its message
   and its fields follow from it, and `Event.line` puts them together:

     LEVEL target: message field=value field=value …

   An event without a message has its first field in the message's place. -/
namespace RingRelay

/-- How much detail a line is about, from the gravest to the finest. -/
inductive Level
  | error
  | warn
  | info
  | debug
  | trace
  deriving DecidableEq, Repr

namespace Level

def name : Level → String
  | error => "ERROR"
  | warn => "WARN"
  | info => "INFO"
  | debug => "DEBUG"
  | trace => "TRACE"

/-- The finer the level, the larger its rank; 0 is left for "nothing at all". -/
def rank : Level → Nat
  | error => 1
  | warn => 2
  | info => 3
  | debug => 4
  | trace => 5

end Level

/-- The value of a field of an event. -/
inductive FieldValue
  | number (value : Nat)
  | flag (value : Bool)
  /-- A name, which a line shows in quotes. -/
  | word (value : String)
  /-- A text, which a line shows as it is. -/
  | text (value : String)
  deriving DecidableEq, Repr

def FieldValue.render : FieldValue → String
  | number value => toString value
  | flag value => if value then "true" else "false"
  | word value => s!"\"{value}\""
  | text value => value

inductive Event
  /-- A reader answered `transferred` to a call with room for `requested` bytes. -/
  | readReturned (requested transferred : Nat)
  | endOfStream (total : Nat)
  | shortRead (requested transferred : Nat)
  /-- A writer answered `transferred` to a call that offered `offered` bytes. -/
  | writeReturned (offered transferred : Nat)
  | shortWrite (offered transferred : Nat)
  | endpointFailed (direction : Direction) (transferred : Nat) (cause : IoError)
  /-- A fill staged `count` bytes, after which the ring held `size`. -/
  | staged (count size : Nat)
  | relayFinished (stats : RelayStats)
  | relayStarting (capacity : Nat) (options : RelayOptions)
  | relayed (stats : RelayStats)
  deriving DecidableEq, Repr

namespace Event

def level : Event → Level
  | readReturned .. => .trace
  | endOfStream .. => .debug
  | shortRead .. => .debug
  | writeReturned .. => .trace
  | shortWrite .. => .debug
  | endpointFailed .. => .warn
  | staged .. => .trace
  | relayFinished .. => .debug
  | relayStarting .. => .debug
  | relayed .. => .info

/-- The part of the program that the event is about. -/
def target : Event → String
  | staged .. => "bytering.relay"
  | relayFinished .. => "bytering.relay"
  | relayStarting .. => "bytering.cli"
  | relayed .. => "bytering"
  | _ => "bytering.ring"

def message : Event → Option String
  | endOfStream .. => some "end of stream"
  | shortRead .. => some "short read"
  | shortWrite .. => some "short write"
  | relayFinished .. => some "relay finished"
  | relayStarting .. => some "starting relay"
  | relayed stats =>
    some s!"relayed {stats.bytesOut} bytes ({stats.fills} fills, {stats.drains} drains)"
  | _ => none

/-- The named figures of the event, in the order in which a line shows them. -/
def fields : Event → List (String × FieldValue)
  | readReturned requested transferred =>
    [("op", .word Direction.read.name), ("requested", .number requested),
      ("transferred", .number transferred)]
  | endOfStream total => [("total", .number total)]
  | shortRead requested transferred =>
    [("requested", .number requested), ("transferred", .number transferred)]
  | writeReturned offered transferred =>
    [("op", .word Direction.write.name), ("offered", .number offered),
      ("transferred", .number transferred)]
  | shortWrite offered transferred =>
    [("offered", .number offered), ("transferred", .number transferred)]
  | endpointFailed direction transferred cause =>
    [("op", .word direction.name), ("transferred", .number transferred),
      ("error", .text cause.message)]
  | staged count size => [("staged", .number count), ("size", .number size)]
  | relayFinished stats =>
    [("bytes_in", .number stats.bytesIn), ("bytes_out", .number stats.bytesOut),
      ("fills", .number stats.fills), ("drains", .number stats.drains)]
  | relayStarting capacity options =>
    [("capacity", .number capacity), ("flush_on_drain", .flag options.flushOnDrain)]
  | relayed _ => []

/-- The names under which a log filter can ask for an event: its fields, and its message. -/
def fieldNames (event : Event) : List String :=
  (event.message.toList.map fun _ => "message") ++ event.fields.map (·.1)

/-- The event as one line of a log, without the time. -/
def line (event : Event) : String :=
  let parts := event.message.toList ++
    event.fields.map fun (name, value) => s!"{name}={value.render}"
  let text := String.intercalate " " parts
  s!"{event.level.name} {event.target}: {text}"

end Event

end RingRelay
