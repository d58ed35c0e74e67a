import RingRelay.IoError
/- The errors of a ring: why one cannot be made, why a whole-buffer operation is refused, and how a
   transfer to or from a stream ends when the endpoint fails. -/
namespace RingRelay

/-- The two directions of a transfer, named from the endpoint's side. -/
inductive Direction
  | read
  | write
  deriving DecidableEq, Repr

def Direction.name : Direction → String
  | .read => "read"
  | .write => "write"

/-- The largest size in bytes that one block of memory can have. -/
def maxBlock : Nat := 0x7fffffffffffffff

/-- Why storage could not be had. -/
inductive AllocationFault
  /-- More bytes were asked for than any block can hold. -/
  | tooLarge
  /-- The allocator had no block of that size. -/
  | refused
  deriving DecidableEq, Repr

def AllocationFault.message : AllocationFault → String
  | .tooLarge =>
    "memory allocation failed because the computed capacity exceeded the collection's maximum"
  | .refused => "memory allocation failed because the memory allocator returned an error"

inductive RingError
  | zeroCapacity
  | allocation (capacity : Nat) (cause : AllocationFault)
  | insufficientData (requested available : Nat)
  | bufferFull (requested remaining : Nat)
  /-- The endpoint failed after `transferred` bytes of this transfer had been moved. -/
  | endpoint (direction : Direction) (transferred : Nat) (cause : IoError)
  deriving DecidableEq, Repr

namespace RingError

def message : RingError → String
  | zeroCapacity => "ring capacity must be greater than zero"
  | allocation capacity cause =>
    s!"failed to allocate {capacity} bytes of ring storage: {cause.message}"
  | insufficientData requested available =>
    s!"insufficient data: requested {requested} bytes, {available} buffered"
  | bufferFull requested remaining =>
    s!"buffer full: requested {requested} bytes, {remaining} free"
  | endpoint direction transferred cause =>
    s!"stream {direction.name} failed after {transferred} bytes: {cause.message}"

/-- The texts of the errors below this one, outermost first. -/
def sources : RingError → List String
  | allocation _ cause => [cause.message]
  | endpoint _ _ cause => [cause.message]
  | _ => []

/-- The bytes a transfer had moved when its endpoint failed. -/
def transferred : RingError → Option Nat
  | endpoint _ transferred _ => some transferred
  | _ => none

def isEndpoint : RingError → Bool
  | endpoint .. => true
  | _ => false

end RingError

end RingRelay
