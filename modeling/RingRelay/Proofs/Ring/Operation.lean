import RingRelay.Proofs.Ring.Flow
/- The operations of a ring as data, so that a use of a ring is a list.

   A stream operation comes with its endpoint as it stands when the operation begins. Each one may
   come with another endpoint, and whatever an endpoint kept from an earlier operation is part of
   its state, so a list of operations is any use of a ring, also one whose user decides by what it
   has seen what to do next. -/
namespace RingRelay

inductive Operation : Type 1
  | write (bytes : List UInt8)
  | read (len : Nat)
  | peek (len : Nat)
  | empty
  | fill {ρ : Type} (rd : Reader ρ) (source : ρ)
  | fillWaiting {ρ : Type} (rd : WaitingReader ρ) (source : ρ)
  | drain {ω : Type} (wr : Writer ω) (sink : ω)
  | drainWaiting {ω : Type} (wr : WaitingWriter ω) (sink : ω)

/-- What an operation returns. -/
inductive Reply
  | done
  | bytes (bytes : List UInt8)
  | moved (count : Nat)
  | refused (error : RingError)

/-- What an operation shows: what it returns and the endpoint calls it made, in order. -/
structure Outcome where
  reply : Reply
  calls : List Call

/-- What a transfer returns. -/
def Reply.ofResult : Except RingError Nat → Reply
  | .ok n => .moved n
  | .error error => .refused error

def Transfer.outcome {ε : Type} (t : Transfer ε) : Outcome := ⟨.ofResult t.result, t.calls⟩

namespace Ring

def perform (ring : Ring) : Operation → Outcome × Ring
  | .write bytes =>
    match ring.write bytes with
    | .ok later => (⟨.done, []⟩, later)
    | .error error => (⟨.refused error, []⟩, ring)
  | .read len =>
    match ring.read len with
    | .ok (bytes, later) => (⟨.bytes bytes, []⟩, later)
    | .error error => (⟨.refused error, []⟩, ring)
  | .peek len =>
    match ring.peek len with
    | .ok bytes => (⟨.bytes bytes, []⟩, ring)
    | .error error => (⟨.refused error, []⟩, ring)
  | .empty => (⟨.done, []⟩, ring.empty)
  | .fill rd source => ((ring.fill rd source).outcome, (ring.fill rd source).ring)
  | .fillWaiting rd source =>
    ((ring.fillWaiting rd source).outcome, (ring.fillWaiting rd source).ring)
  | .drain wr sink => ((ring.drain wr sink).outcome, (ring.drain wr sink).ring)
  | .drainWaiting wr sink =>
    ((ring.drainWaiting wr sink).outcome, (ring.drainWaiting wr sink).ring)

/-- Performs operations one after another. -/
def performAll (ring : Ring) : List Operation → List Outcome × Ring
  | [] => ([], ring)
  | op :: ops =>
    let first := ring.perform op
    let rest := first.2.performAll ops
    (first.1 :: rest.1, rest.2)

end Ring

end RingRelay
