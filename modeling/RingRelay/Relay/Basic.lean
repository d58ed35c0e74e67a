import RingRelay.Ring.Error
/- The vocabulary of a relay: what it may be told, what it counts, and how it fails. -/
namespace RingRelay

/-- How a relay treats its writer. -/
structure RelayOptions where
  /-- Flush the writer every time the ring has been drained. -/
  flushOnDrain : Bool := true
  deriving DecidableEq, Repr

/-- The counts of a relay. They are those of a program with words of 64 bits if there are fewer than
    2 ^ 64 bytes to relay, those in the ring at the start included. -/
structure RelayStats where
  /-- Bytes staged, those counted in that were in the ring at the start. -/
  bytesIn : Nat
  /-- Bytes that the writer took. -/
  bytesOut : Nat
  /-- Fills that staged at least one byte. -/
  fills : Nat
  /-- Times the ring was drained to empty. -/
  drains : Nat
  deriving DecidableEq, Repr

inductive RelayError
  | ring (error : RingError)
  /-- The writer took nothing while `pending` bytes were staged. -/
  | stalledWriter (pending : Nat)
  | flush (cause : IoError)
  /-- The task that ran the relay broke down. -/
  | join (text : String)
  deriving DecidableEq, Repr

namespace RelayError

def message : RelayError → String
  | ring error => s!"ring error: {error.message}"
  | stalledWriter pending => s!"writer accepted no bytes with {pending} bytes pending"
  | flush cause => s!"flush failed: {cause.message}"
  | join text => s!"relay task failed: {text}"

/-- The texts of the errors below this one, outermost first. A failed flush shows its cause in its
    own text only. -/
def sources : RelayError → List String
  | ring error => error.message :: error.sources
  | _ => []

end RelayError

end RingRelay
