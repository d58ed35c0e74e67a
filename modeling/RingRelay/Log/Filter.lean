import RingRelay.Log.Directive
import RingRelay.Text.Blank
import RingRelay.Text.Quoted
/- Log filters: lists of directives, and which events they let through.

   The program has no spans, so a directive that names one, or asks for a field with a value, lets
   nothing through. Of the others the most specific one that is about an event decides: a longer
   target is more specific, then more fields; of two with the same target and fields the later
   counts. An event that no directive is about is not let through. -/
namespace RingRelay

/-- Reads one directive. Blanks around it do not count as its characters, but its parts are cut out
    of the whole text at the places they would have without the blanks. -/
def Directive.read (text : String) : Except DirectiveFault Directive :=
  Directive.readFrom text.toList .start {} 0 (Text.trimChars text.toList)

/-- A directive about events: those whose target begins as given and that have all the fields. -/
structure Rule where
  target : Option String
  fields : List String
  verbosity : Verbosity
  deriving DecidableEq, Repr

namespace Rule

/-- The rule of a directive that can decide about events. -/
def of? (d : Directive) : Option Rule :=
  if d.span.isNone && d.fields.all (·.2.isNone) then
    some ⟨d.target, d.fields.map (·.1), d.verbosity⟩
  else none

/-- Compares two lists of texts, first by their first texts. -/
def compareTexts : List String → List String → Ordering
  | [], [] => .eq
  | [], _ :: _ => .lt
  | _ :: _, [] => .gt
  | a :: as, b :: bs => (compare a b).then (compareTexts as bs)

/-- Compares two rules; the more specific one is greater. -/
def compareSpecific (a b : Rule) : Ordering :=
  (compare (a.target.map String.utf8ByteSize) (b.target.map String.utf8ByteSize)).then <|
  (compare a.fields.length b.fields.length).then <|
  (compare a.target b.target).then (compareTexts a.fields b.fields)

/-- Whether a rule is about an event. -/
def isAbout (rule : Rule) (event : Event) : Bool :=
  (rule.target.all fun target => target.toList.isPrefixOf event.target.toList) &&
    rule.fields.all event.fieldNames.contains

end Rule

/-- Rules, the more specific ones first. -/
structure Filter where
  rules : List Rule
  deriving DecidableEq, Repr

namespace Filter

/-- The rules with one more in its place. It replaces a rule about the same events. -/
def insert (rule : Rule) : List Rule → List Rule
  | [] => [rule]
  | other :: rest =>
    match Rule.compareSpecific rule other with
    | .gt => rule :: other :: rest
    | .eq => rule :: rest
    | .lt => other :: insert rule rest

/-- The filter of some directives, which come in the order in which they were written. -/
def ofDirectives (directives : List Directive) : Filter :=
  ⟨(directives.filterMap Rule.of?).foldl (fun rules rule => insert rule rules) []⟩

/-- Whether a filter lets an event through. -/
def allows (filter : Filter) (event : Event) : Bool :=
  match filter.rules.find? (·.isAbout event) with
  | none => false
  | some rule => event.level.rank ≤ rule.verbosity.rank

/-- The directives of a list, which have commas between them. Empty ones are passed over. -/
def pieces (text : String) : List String := (Directive.cut ',' text).filter (!·.isEmpty)

/-- The filter that a text writes. All its directives must be right. -/
def read (text : String) : Except DirectiveFault Filter :=
  ofDirectives <$> (pieces text).mapM Directive.read

/-- The filter of those directives in a text that are right, and a notice for each of the others. -/
def readLenient (text : String) : Filter × List String :=
  let readings := (pieces text).map fun piece => (piece, Directive.read piece)
  let directives := readings.filterMap fun (_, reading) => reading.toOption
  let notices := readings.filterMap fun (piece, reading) =>
    match reading with
    | .ok _ => none
    | .error fault => some s!"ignoring `{piece}`: {fault.message}"
  (ofDirectives directives, notices)

end Filter

end RingRelay
