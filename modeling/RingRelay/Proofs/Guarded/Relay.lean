import RingRelay.Proofs.Guarded.Transfer
import RingRelay.Relay.Run
/- A relay of a running program.

   It is `Relay.rounds` with the transfers of a program. The counts of a relay are left out: they
   are sums of what its transfers report, which the ring knows nothing of. None of them is above the
   number of the bytes there were, so they cannot overflow below 2 ^ 64 bytes. -/
namespace RingRelay.Bare

/-- Everything a relay has at hand between two steps. -/
structure State (ρ ω : Type) where
  ring : Bare
  source : ρ
  sink : ω
  /-- The calls so far, in order, each with the ring behind it. -/
  trace : List (Call × Bare)

inductive Progress (ρ ω : Type)
  | running (state : State ρ ω)
  | ended (state : State ρ ω) (result : Except RelayError Unit)

variable {ρ ω : Type}

namespace State

def afterDrain (s : State ρ ω) (t : Transfer ω) : State ρ ω :=
  { s with ring := t.ring, sink := t.endpoint, trace := s.trace ++ t.trace }

def afterFill (s : State ρ ω) (t : Transfer ρ) : State ρ ω :=
  { s with ring := t.ring, source := t.endpoint, trace := s.trace ++ t.trace }

def afterFlush (s : State ρ ω) (answer : FlushAnswer) (sink : ω) : State ρ ω :=
  { s with sink, trace := s.trace ++ [(.flush answer, s.ring)] }

end State

section Program

variable (build : Build)

/-- One drain of a ring that is to be emptied. -/
def emptyPass (wr : WaitingWriter ω) (s : State ρ ω) :
    Guarded (Progress ρ ω ⊕ State ρ ω) := do
  if 0 < s.ring.size then do
    let t ← drain build wr.raw s.ring s.sink
    match t.result with
    | .error error => pure (.inl (.ended (s.afterDrain t) (.error (.ring error))))
    | .ok 0 => pure (.inl (.ended (s.afterDrain t) (.error (.stalledWriter s.ring.size))))
    | .ok (_ + 1) => pure (.inr (s.afterDrain t))
  else pure (.inl (.running s))

def emptyInto (wr : WaitingWriter ω) : State ρ ω → Guarded (Progress ρ ω) :=
  Guarded.loop (emptyPass build wr)

def flushSink (wr : WaitingWriter ω) (s : State ρ ω) : Progress ρ ω :=
  match wr.flush s.sink with
  | (.ok (), later) => .running (s.afterFlush (.ok ()) later)
  | (.error cause, later) => .ended (s.afterFlush (.error cause) later) (.error (.flush cause))

def drainAll (wr : WaitingWriter ω) (options : RelayOptions) (s : State ρ ω) :
    Guarded (Progress ρ ω) := do
  if s.ring.size = 0 then pure (.running s)
  else do
    match ← emptyInto build wr s with
    | .ended s result => pure (.ended s result)
    | .running s => pure (if options.flushOnDrain then flushSink wr s else .running s)

def finish (wr : WaitingWriter ω) (s : State ρ ω) : Progress ρ ω :=
  match flushSink wr s with
  | .ended s result => .ended s result
  | .running s => .ended s (.ok ())

def round (rd : WaitingReader ρ) (wr : WaitingWriter ω) (options : RelayOptions)
    (s : State ρ ω) : Guarded (Progress ρ ω) := do
  let t ← fill build rd.raw s.ring s.source
  match t.result with
  | .error error => pure (.ended (s.afterFill t) (.error (.ring error)))
  | .ok 0 => pure (finish wr (s.afterFill t))
  | .ok (_ + 1) => drainAll build wr options (s.afterFill t)

/-- Where a program's relay stands after `n` rounds. -/
def rounds (rd : WaitingReader ρ) (wr : WaitingWriter ω) (options : RelayOptions) (ring : Bare)
    (source : ρ) (sink : ω) : Nat → Guarded (Progress ρ ω)
  | 0 => drainAll build wr options ⟨ring, source, sink, []⟩
  | n + 1 => do
    match ← rounds rd wr options ring source sink n with
    | .running s => round build rd wr options s
    | .ended s result => pure (.ended s result)

end Program

/-! ## On the bare form of a ring -/

/-- A program's relay that began with the bare form of `first` shows what a relay has. -/
structure State.Shows (first : Ring) (b : State ρ ω) (s : Relay.State ρ ω) : Prop where
  ring : b.ring = s.ring.bare
  source : b.source = s.source
  sink : b.sink = s.sink
  calls : b.trace.map Prod.fst = s.calls.toList
  traces : Traces first b.trace s.ring

/-- Both stand at the same place, and are both running or ended alike. -/
def Progress.Shows (first : Ring) : Progress ρ ω → Relay.Progress ρ ω → Prop
  | .running b, .running s => b.Shows first s
  | .ended b result, .ended s result' => b.Shows first s ∧ result = result'.map fun _ => ()
  | _, _ => False

variable {build : Build} {first : Ring} {b : State ρ ω} {s : Relay.State ρ ω}

theorem shows_afterFlush (h : b.Shows first s) (answer : FlushAnswer) (later : ω) :
    (b.afterFlush answer later).Shows first (s.afterFlush answer later) where
  ring := h.ring
  source := h.source
  sink := rfl
  calls := by
    show List.map Prod.fst (b.trace ++ [(Call.flush answer, b.ring)]) = _
    rw [List.map_append, h.calls]
    exact Array.toList_push.symm
  traces := by
    show Traces first (b.trace ++ [(Call.flush answer, b.ring)]) s.ring
    rw [h.ring]
    exact h.traces.append (.cons (.of_unmoved rfl rfl rfl rfl rfl) (.nil s.ring))

/-- A program's drain of the ring of a relay. -/
theorem drain_of_shows (build : Build) (wr : WaitingWriter ω) (h : b.Shows first s) :
    ∃ t, drain build wr.raw b.ring b.sink = pure t ∧
      t.result = (s.ring.drainWaiting wr s.sink).result ∧
      (b.afterDrain t).Shows first (s.afterDrain (s.ring.drainWaiting wr s.sink)) := by
  obtain ⟨trace, hprogram, hcalls, htraces⟩ := mirrors_drain build wr s.ring s.sink
  rw [h.ring, h.sink]
  refine ⟨_, hprogram, rfl, ⟨rfl, h.source, rfl, ?_, h.traces.append htraces⟩⟩
  show List.map Prod.fst (b.trace ++ trace) = _
  rw [List.map_append, h.calls, hcalls]
  exact (Array.toList_appendList).symm

theorem fill_of_shows (build : Build) (rd : WaitingReader ρ) (h : b.Shows first s) :
    ∃ t, fill build rd.raw b.ring b.source = pure t ∧
      t.result = (s.ring.fillWaiting rd s.source).result ∧
      (b.afterFill t).Shows first (s.afterFill (s.ring.fillWaiting rd s.source)) := by
  obtain ⟨trace, hprogram, hcalls, htraces⟩ := mirrors_fill build rd s.ring s.source
  rw [h.ring, h.source]
  refine ⟨_, hprogram, rfl, ⟨rfl, rfl, h.sink, ?_, h.traces.append htraces⟩⟩
  show List.map Prod.fst (b.trace ++ trace) = _
  rw [List.map_append, h.calls, hcalls]
  exact (Array.toList_appendList).symm

/-- A pass of a program's emptying, by what the drain of the relay came to. -/
theorem emptyPass_of_shows (build : Build) (wr : WaitingWriter ω) (h : b.Shows first s)
    (hsize : 0 < s.ring.size) :
    ∃ t, (b.afterDrain t).Shows first (s.afterDrain (s.ring.drainWaiting wr s.sink)) ∧
      emptyPass build wr b = match (s.ring.drainWaiting wr s.sink).result with
        | .error error => pure (.inl (.ended (b.afterDrain t) (.error (.ring error))))
        | .ok 0 => pure (.inl (.ended (b.afterDrain t) (.error (.stalledWriter s.ring.size))))
        | .ok (_ + 1) => pure (.inr (b.afterDrain t)) := by
  obtain ⟨t, ht, htresult, hshows⟩ := drain_of_shows build wr h
  have hbsize : b.ring.size = s.ring.size := by rw [h.ring, size_bare]
  refine ⟨t, hshows, ?_⟩
  rw [emptyPass, hbsize, if_pos hsize, ht, pure_bind, htresult]

theorem emptyInto_of_shows (build : Build) (wr : WaitingWriter ω) (h : b.Shows first s) :
    ∃ p, emptyInto build wr b = pure p ∧ p.Shows first (Relay.emptyInto wr s) := by
  fun_induction Relay.emptyInto wr s generalizing b with
  | case1 s hsize error hresult =>
    obtain ⟨t, hshows, hpass⟩ := emptyPass_of_shows build wr h hsize
    rw [hresult] at hpass
    exact ⟨_, Guarded.loop_of_result hpass, hshows, rfl⟩
  | case2 s hsize hresult =>
    obtain ⟨t, hshows, hpass⟩ := emptyPass_of_shows build wr h hsize
    rw [hresult] at hpass
    exact ⟨_, Guarded.loop_of_result hpass, hshows, rfl⟩
  | case3 s hsize n hresult ih =>
    obtain ⟨t, hshows, hpass⟩ := emptyPass_of_shows build wr h hsize
    -- The counts of a relay are no part of what a program's relay shows.
    have hcounted : (b.afterDrain t).Shows first
        ((s.afterDrain (s.ring.drainWaiting wr s.sink)).countTaken (n + 1)) :=
      ⟨hshows.ring, hshows.source, hshows.sink, hshows.calls, hshows.traces⟩
    rw [hresult] at hpass
    rw [emptyInto, Guarded.loop_of_next hpass]
    exact ih hcounted
  | case4 s hsize =>
    refine ⟨.running b, Guarded.loop_of_result ?_, h⟩
    rw [emptyPass, h.ring, size_bare, if_neg hsize]

theorem flushSink_shows (wr : WaitingWriter ω) (h : b.Shows first s) :
    (flushSink wr b).Shows first (Relay.flushSink wr s) := by
  unfold flushSink Relay.flushSink
  rw [h.sink]
  rcases wr.flush s.sink with ⟨answer, later⟩
  cases answer with
  | ok => exact shows_afterFlush h (.ok ()) later
  | error cause => exact ⟨shows_afterFlush h (.error cause) later, rfl⟩

theorem drainAll_of_shows (build : Build) (wr : WaitingWriter ω) (options : RelayOptions)
    (h : b.Shows first s) :
    ∃ p, drainAll build wr options b = pure p ∧ p.Shows first (Relay.drainAll wr options s) := by
  unfold drainAll Relay.drainAll
  rw [h.ring, size_bare]
  by_cases hsize : s.ring.size = 0
  · rw [if_pos hsize, if_pos hsize]
    exact ⟨.running b, rfl, h⟩
  · rw [if_neg hsize, if_neg hsize]
    obtain ⟨p, hp, hshows⟩ := emptyInto_of_shows build wr h
    rw [hp, pure_bind]
    cases hmodel : Relay.emptyInto wr s with
    | ended s' result =>
      rw [hmodel] at hshows
      cases p with
      | running b' => exact hshows.elim
      | ended b' result' => exact ⟨.ended b' result', rfl, hshows⟩
    | running s' =>
      rw [hmodel] at hshows
      cases p with
      | ended b' result' => exact hshows.elim
      | running b' =>
        have hcounted : b'.Shows first s'.countDrain :=
          ⟨hshows.ring, hshows.source, hshows.sink, hshows.calls, hshows.traces⟩
        simp only
        split
        · exact ⟨flushSink wr b', rfl, flushSink_shows wr hcounted⟩
        · exact ⟨.running b', rfl, hcounted⟩

theorem finish_shows (wr : WaitingWriter ω) (h : b.Shows first s) :
    (finish wr b).Shows first (Relay.finish wr s) := by
  have hflush := flushSink_shows wr h
  unfold finish Relay.finish
  cases hmodel : Relay.flushSink wr s with
  | ended s' result =>
    rw [hmodel] at hflush
    cases hp : flushSink wr b with
    | running b' =>
      rw [hp] at hflush
      exact hflush.elim
    | ended b' result' =>
      rw [hp] at hflush
      exact hflush
  | running s' =>
    rw [hmodel] at hflush
    cases hp : flushSink wr b with
    | ended b' result' =>
      rw [hp] at hflush
      exact hflush.elim
    | running b' =>
      rw [hp] at hflush
      exact ⟨⟨hflush.ring, hflush.source, hflush.sink, hflush.calls, hflush.traces⟩, rfl⟩

theorem round_of_shows (build : Build) (rd : WaitingReader ρ) (wr : WaitingWriter ω)
    (options : RelayOptions) (h : b.Shows first s) :
    ∃ p, round build rd wr options b = pure p ∧ p.Shows first (Relay.round rd wr options s) := by
  obtain ⟨t, ht, htresult, hshows⟩ := fill_of_shows build rd h
  unfold round Relay.round
  rw [ht, pure_bind, htresult]
  rcases (s.ring.fillWaiting rd s.source).result with error | ⟨_ | n⟩
  · exact ⟨.ended (b.afterFill t) (.error (.ring error)), rfl, hshows, rfl⟩
  · exact ⟨finish wr (b.afterFill t), rfl, finish_shows wr hshows⟩
  · have hcounted : (b.afterFill t).Shows first
        ((s.afterFill (s.ring.fillWaiting rd s.source)).countFill (n + 1)) :=
      ⟨hshows.ring, hshows.source, hshows.sink, hshows.calls, hshows.traces⟩
    exact drainAll_of_shows build wr options hcounted

/-- A program's relay does not break down, and stands where the relay of the ring stands. -/
theorem rounds_shows (build : Build) (rd : WaitingReader ρ) (wr : WaitingWriter ω)
    (options : RelayOptions) (ring : Ring) (source : ρ) (sink : ω) (n : Nat) :
    ∃ p, rounds build rd wr options ring.bare source sink n = pure p ∧
      p.Shows ring (Relay.rounds rd wr options ring source sink n) := by
  induction n with
  | zero => exact drainAll_of_shows build wr options ⟨rfl, rfl, rfl, rfl, .nil ring⟩
  | succ n ih =>
    obtain ⟨p, hp, hshows⟩ := ih
    unfold rounds Relay.rounds
    rw [hp, pure_bind]
    cases hmodel : Relay.rounds rd wr options ring source sink n with
    | running s =>
      rw [hmodel] at hshows
      cases p with
      | ended b result => exact hshows.elim
      | running b => exact round_of_shows build rd wr options hshows
    | ended s result =>
      rw [hmodel] at hshows
      cases p with
      | running b => exact hshows.elim
      | ended b result' => exact ⟨.ended b result', rfl, hshows⟩

end RingRelay.Bare
