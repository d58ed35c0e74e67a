import RingRelay.Relay.Basic
/- The ways in which the program as a whole fails, and its exit codes. -/
namespace RingRelay

inductive Failure
  | config (text : String)
  | relay (error : RelayError)
  | io (error : IoError)
  | logging (text : String)
  deriving DecidableEq, Repr

namespace Failure

/-- The line that the program ends with. -/
def message : Failure → String
  | config text => s!"config error: {text}"
  | relay error => s!"relay failed: {error.message}"
  | io error => s!"io error: {error.message}"
  | logging text => s!"logging setup failed: {text}"

/-- The texts of the errors below this one, outermost first. -/
def sources : Failure → List String
  | relay error => error.message :: error.sources
  | io error => [error.message]
  | _ => []

/-- The exit code: 11 for settings that cannot be used, 20 for streams that fail, 50 for what should
    not happen. -/
def exitCode : Failure → Nat
  | config _ => 11
  | logging _ => 11
  | io _ => 20
  | relay (.ring error) => if error.isEndpoint then 20 else 50
  | relay (.join _) => 50
  | relay (.stalledWriter _) => 20
  | relay (.flush _) => 20

end Failure

end RingRelay
