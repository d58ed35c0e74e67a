import RingRelay.IoError
/- The two ends of a transfer, from the ring's point of view.

   A reader is asked to fill a slice of cells. It sees how long the slice is and answers from its
   own state; what it left in the cells and what it reports are two things, for a reader may touch
   cells and then fail, or report more than it put down. A writer is offered bytes and reports how
   many it took. Nothing is assumed about the reports: they may be short, zero or larger than the
   slice.

   A waiting endpoint may also answer that it is not ready and is then asked the same again. It
   carries a bound on how often that can happen before an answer comes. -/
namespace RingRelay

/-- What one call of a reader did: the bytes it left in the cells of the slice, from the first cell
    on (`none` where it left a cell alone), and the count or the error it reports. -/
structure ReadAnswer where
  stores : List (Option UInt8)
  result : Except IoError Nat

/-- What one call of a writer did: the count or the error it reports. -/
abbrev WriteAnswer := Except IoError Nat

/-- What a flush did. -/
abbrev FlushAnswer := Except IoError Unit

/-- A source of bytes whose calls return only with an answer. -/
structure Reader (ρ : Type) where
  read : ρ → Nat → ReadAnswer × ρ

/-- A sink of bytes whose calls return only with an answer. -/
structure Writer (ω : Type) where
  write : ω → List UInt8 → WriteAnswer × ω
  flush : ω → FlushAnswer × ω

/-- The answer of an endpoint that need not be ready. -/
inductive Poll (α : Type)
  | pending
  | ready (answer : α)

/-- A source of bytes that may ask to be called again later. -/
structure WaitingReader (ρ : Type) where
  poll : ρ → Nat → Poll ReadAnswer × ρ
  /-- How often the reader can still be found not ready. -/
  patience : ρ → Nat
  patience_lt : ∀ {s room s'}, poll s room = (.pending, s') → patience s' < patience s

/-- A sink of bytes that may ask to be called again later. -/
structure WaitingWriter (ω : Type) where
  poll : ω → List UInt8 → Poll WriteAnswer × ω
  flush : ω → FlushAnswer × ω
  /-- How often the writer can still be found not ready. -/
  patience : ω → Nat
  patience_lt : ∀ {s offered s'}, poll s offered = (.pending, s') → patience s' < patience s

/-- A reader's stream ends: there is a bound on the calls that can still deliver something, which no
    call raises and each call that delivers lowers. -/
structure WaitingReader.Ends {ρ : Type} (rd : WaitingReader ρ) where
  left : ρ → Nat
  left_le : ∀ s room, left (rd.poll s room).2 ≤ left s
  left_lt : ∀ {s room answer n}, (rd.poll s room).1 = .ready answer → answer.result = .ok n →
    0 < n → left (rd.poll s room).2 < left s

/-- One call of an endpoint that got an answer, as it is remembered. -/
inductive Call
  /-- A read into a slice of `room` cells. The bytes it delivered are the first of the slice, as
      many as were reported, or none if that is more than `room`. -/
  | read (room : Nat) (result : Except IoError Nat) (delivered : List UInt8)
  | write (offered : List UInt8) (result : WriteAnswer)
  | flush (result : FlushAnswer)

namespace Call

def delivered : Call → List UInt8
  | read _ _ delivered => delivered
  | _ => []

/-- The bytes that a call took over: of those offered, as many as were reported, if there were as
    many. -/
def acknowledged : Call → List UInt8
  | write offered (.ok n) => if n ≤ offered.length then offered.take n else []
  | _ => []

/-- The size of the slice that a read was given. -/
def room? : Call → Option Nat
  | read room _ _ => some room
  | _ => none

/-- The bytes that a write was offered. -/
def offered? : Call → Option (List UInt8)
  | write offered _ => some offered
  | _ => none

def isFlush : Call → Bool
  | flush _ => true
  | _ => false

end Call

end RingRelay
