import RingRelay.Ring.Transfer
/- The relay: bytes go from a reader through a ring to a writer until the reader is at the end of
   its stream and the ring is empty.

   A relay moves in rounds. Before the first round, bytes that were already in the ring are drained.
   A round is one fill followed by a drain to empty; a round whose fill brings nothing flushes the
   writer and ends the relay. `Relay.rounds` gives where a relay stands after any number of rounds,
   also one that never ends. A relay from a reader whose stream ends (`WaitingReader.Ends`) always
   ends itself, and `Relay.run` gives how. -/
namespace RingRelay

namespace Relay

/-- Everything a relay has at hand between two steps, with what it has done so far. -/
structure State (ρ ω : Type) where
  ring : Ring
  source : ρ
  sink : ω
  stats : RelayStats
  /-- The endpoint calls so far, in order. -/
  calls : Array Call
  /-- The events so far, in order. -/
  events : Array Event

/-- Where a relay stands. -/
inductive Progress (ρ ω : Type)
  | running (state : State ρ ω)
  | ended (state : State ρ ω) (result : Except RelayError RelayStats)

variable {ρ ω : Type}

namespace State

/-- The state after a drain of the ring. -/
def afterDrain (s : State ρ ω) (t : Transfer ω) : State ρ ω :=
  { s with
    ring := t.ring
    sink := t.endpoint
    calls := s.calls ++ t.calls
    events := s.events ++ t.events }

/-- The state after a fill of the ring. -/
def afterFill (s : State ρ ω) (t : Transfer ρ) : State ρ ω :=
  { s with
    ring := t.ring
    source := t.endpoint
    calls := s.calls ++ t.calls
    events := s.events ++ t.events }

/-- The state after a flush of the writer. -/
def afterFlush (s : State ρ ω) (answer : FlushAnswer) (sink : ω) : State ρ ω :=
  { s with sink, calls := s.calls.push (.flush answer) }

def countTaken (s : State ρ ω) (n : Nat) : State ρ ω :=
  { s with stats := { s.stats with bytesOut := s.stats.bytesOut + n } }

def countDrain (s : State ρ ω) : State ρ ω :=
  { s with stats := { s.stats with drains := s.stats.drains + 1 } }

/-- The state with a fill of `n` bytes counted and reported. -/
def countFill (s : State ρ ω) (n : Nat) : State ρ ω :=
  { s with
    stats := { s.stats with bytesIn := s.stats.bytesIn + n, fills := s.stats.fills + 1 }
    events := s.events.push (.staged n s.ring.size) }

end State

/-! ## Draining everything -/

/-- Drains again and again until the ring is empty. A drain that moves nothing ends the relay: the
    writer has stalled. -/
def emptyInto (wr : WaitingWriter ω) (s : State ρ ω) : Progress ρ ω :=
  if 0 < s.ring.size then
    match _h : (s.ring.drainWaiting wr s.sink).result with
    | .error error =>
      .ended (s.afterDrain (s.ring.drainWaiting wr s.sink)) (.error (.ring error))
    | .ok 0 =>
      .ended (s.afterDrain (s.ring.drainWaiting wr s.sink)) (.error (.stalledWriter s.ring.size))
    | .ok (n + 1) =>
      emptyInto wr ((s.afterDrain (s.ring.drainWaiting wr s.sink)).countTaken (n + 1))
  else .running s
termination_by s.ring.size
decreasing_by
  have := Ring.size_drainWaitingFrom _h
  simp only [State.countTaken, State.afterDrain, Ring.drainWaiting]
  omega

/-- Flushes the writer; a relay cannot go on after a failed flush. -/
def flushSink (wr : WaitingWriter ω) (s : State ρ ω) : Progress ρ ω :=
  match wr.flush s.sink with
  | (.ok (), later) => .running (s.afterFlush (.ok ()) later)
  | (.error cause, later) => .ended (s.afterFlush (.error cause) later) (.error (.flush cause))

/-- Drains the ring to empty. If there was something to drain, that is counted and, if asked for,
    followed by a flush. -/
def drainAll (wr : WaitingWriter ω) (options : RelayOptions) (s : State ρ ω) : Progress ρ ω :=
  if s.ring.size = 0 then .running s
  else
    match emptyInto wr s with
    | .ended s result => .ended s result
    | .running s =>
      if options.flushOnDrain then flushSink wr s.countDrain else .running s.countDrain

/-! ## Rounds -/

/-- The end of a relay whose reader has no more: a last flush, and a report of the counts. -/
def finish (wr : WaitingWriter ω) (s : State ρ ω) : Progress ρ ω :=
  match flushSink wr s with
  | .ended s result => .ended s result
  | .running s =>
    .ended { s with events := s.events.push (.relayFinished s.stats) } (.ok s.stats)

/-- One fill, and then a drain to empty or the end. -/
def round (rd : WaitingReader ρ) (wr : WaitingWriter ω) (options : RelayOptions)
    (s : State ρ ω) : Progress ρ ω :=
  match (s.ring.fillWaiting rd s.source).result with
  | .error error => .ended (s.afterFill (s.ring.fillWaiting rd s.source)) (.error (.ring error))
  | .ok 0 => finish wr (s.afterFill (s.ring.fillWaiting rd s.source))
  | .ok (n + 1) =>
    drainAll wr options ((s.afterFill (s.ring.fillWaiting rd s.source)).countFill (n + 1))

/-- Where a relay stands before its first round: what was in the ring has been drained. -/
def start (wr : WaitingWriter ω) (options : RelayOptions) (ring : Ring) (source : ρ) (sink : ω) :
    Progress ρ ω :=
  drainAll wr options
    { ring
      source
      sink
      stats := { bytesIn := ring.size, bytesOut := 0, fills := 0, drains := 0 }
      calls := #[]
      events := #[] }

/-- Where a relay stands after one more round. One that has ended stays as it ended. -/
def Progress.next (rd : WaitingReader ρ) (wr : WaitingWriter ω) (options : RelayOptions) :
    Progress ρ ω → Progress ρ ω
  | .running s => round rd wr options s
  | .ended s result => .ended s result

/-- Where a relay stands after `n` rounds. -/
def rounds (rd : WaitingReader ρ) (wr : WaitingWriter ω) (options : RelayOptions) (ring : Ring)
    (source : ρ) (sink : ω) : Nat → Progress ρ ω
  | 0 => start wr options ring source sink
  | n + 1 => (rounds rd wr options ring source sink n).next rd wr options

end Relay

end RingRelay
