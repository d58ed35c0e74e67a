import RingRelay.Relay.Run
/- Relays up to their end.

   `runWithin` goes through a number of rounds, and has an outcome if the relay is over by then. If
   the reader's stream ends no number is needed: a fill that brings something used up some of the
   stream, so the rounds are bounded and `run` goes through them all. `pump` and `pumpWithin` are
   relays with a ring of their own. -/
namespace RingRelay

namespace Ring

variable {ρ : Type} {rd : WaitingReader ρ}

theorem left_fillWaitingFrom_le (ends : rd.Ends) (ring : Ring) (source : ρ) (total : Nat) :
    ends.left (fillWaitingFrom rd ring source total).endpoint ≤ ends.left source := by
  fun_induction fillWaitingFrom rd ring source total with
  | case1 ring source _ _ later hp ih =>
    have := ends.left_le source ring.writableRun
    simp only [hp] at this
    omega
  | case2 ring source _ _ answer later hp a _ =>
    rename_i ih
    have := ends.left_le source ring.writableRun
    simp only [hp] at this
    simp only [Transfer.endpoint_after]
    omega
  | case3 ring source _ _ answer later hp a =>
    have := ends.left_le source ring.writableRun
    simp only [hp] at this
    simpa [Absorbed.finish] using this
  | case4 ring source _ _ answer later hp a =>
    have := ends.left_le source ring.writableRun
    simp only [hp] at this
    simpa [Absorbed.finish] using this
  | case5 => simp [idle]

/-- A fill that brought something used up some of the stream. -/
theorem left_fillWaitingFrom_lt (ends : rd.Ends) {ring : Ring} {source : ρ} {total n : Nat}
    (h : (fillWaitingFrom rd ring source total).result = .ok n) (hn : total < n) :
    ends.left (fillWaitingFrom rd ring source total).endpoint < ends.left source := by
  fun_induction fillWaitingFrom rd ring source total generalizing n with
  | case1 ring source _ _ later hp ih =>
    have := ends.left_le source ring.writableRun
    simp only [hp] at this
    have := ih h hn
    omega
  | case2 ring source total _ answer later hp a ha =>
    have hmoved : a.moved = ring.writableRun ∧ 0 < ring.writableRun := moved_absorbRead_of_more ha
    have hpos : 0 < a.moved := by omega
    have hlt := ends.left_lt (by rw [hp]) (result_of_moved_absorbRead hpos) hpos
    simp only [hp] at hlt
    have := left_fillWaitingFrom_le ends a.ring later (total + a.moved)
    simp only [Transfer.endpoint_after]
    omega
  | case3 ring source total _ answer later hp a =>
    obtain rfl : total + a.moved = n := by simpa [Absorbed.finish] using h
    have hpos : 0 < a.moved := by omega
    have hlt := ends.left_lt (by rw [hp]) (result_of_moved_absorbRead hpos) hpos
    simp only [hp] at hlt
    simpa [Absorbed.finish] using hlt
  | case4 => simp [Absorbed.finish] at h
  | case5 ring _ total _ =>
    obtain rfl : total = n := by simpa [idle] using h
    omega

end Ring

namespace Relay

variable {ρ ω : Type} {rd : WaitingReader ρ}

theorem source_of_emptyInto {wr : WaitingWriter ω} {s s' : State ρ ω}
    (h : emptyInto wr s = .running s') : s'.source = s.source := by
  fun_induction emptyInto wr s with
  | case1 => simp at h
  | case2 => simp at h
  | case3 s _ n _ ih => exact (ih h).trans rfl
  | case4 s _ =>
    obtain rfl : s = s' := by simpa using h
    rfl

theorem source_of_flushSink {wr : WaitingWriter ω} {s s' : State ρ ω}
    (h : flushSink wr s = .running s') : s'.source = s.source := by
  unfold flushSink at h
  split at h
  · simp only [Progress.running.injEq] at h
    subst h
    rfl
  · simp at h

theorem source_of_drainAll {wr : WaitingWriter ω} {options : RelayOptions} {s s' : State ρ ω}
    (h : drainAll wr options s = .running s') : s'.source = s.source := by
  unfold drainAll at h
  split at h
  · simp only [Progress.running.injEq] at h
    rw [← h]
  · split at h
    · simp at h
    · rename_i s'' he
      have hs := source_of_emptyInto he
      split at h
      · rw [source_of_flushSink h]
        exact hs
      · simp only [Progress.running.injEq] at h
        rw [← h]
        exact hs

theorem finish_ne_running (wr : WaitingWriter ω) (s s' : State ρ ω) :
    finish wr s ≠ .running s' := by
  unfold finish
  split <;> simp

/-- A round after which the relay still runs used up some of the stream. -/
theorem left_round_lt (ends : rd.Ends) {wr : WaitingWriter ω} {options : RelayOptions}
    {s s' : State ρ ω} (h : round rd wr options s = .running s') :
    ends.left s'.source < ends.left s.source := by
  unfold round at h
  split at h
  · simp at h
  · exact absurd h (finish_ne_running wr _ _)
  · rename_i n hn
    rw [source_of_drainAll h]
    exact Ring.left_fillWaitingFrom_lt ends hn (Nat.succ_pos n)

/-- How a relay ended. -/
structure Outcome (ρ ω : Type) where
  result : Except RelayError RelayStats
  state : State ρ ω

/-- Goes through at most `n` rounds. There is no outcome if the relay still runs then. -/
def runWithin (rd : WaitingReader ρ) (wr : WaitingWriter ω) (options : RelayOptions) :
    Nat → Progress ρ ω → Option (Outcome ρ ω)
  | _, .ended s result => some ⟨result, s⟩
  | 0, .running _ => none
  | n + 1, .running s => runWithin rd wr options n (round rd wr options s)

/-- Goes through the rounds that are left. -/
def runFrom (ends : rd.Ends) (wr : WaitingWriter ω) (options : RelayOptions) :
    Progress ρ ω → Outcome ρ ω
  | .ended s result => ⟨result, s⟩
  | .running s =>
    match _h : round rd wr options s with
    | .ended s result => ⟨result, s⟩
    | .running s' => runFrom ends wr options (.running s')
termination_by
  progress => match progress with
    | .ended _ _ => 0
    | .running s => ends.left s.source
decreasing_by exact left_round_lt ends _h

/-- Relays the stream of a reader to a writer through a ring, which need not be empty. -/
def run (ends : rd.Ends) (wr : WaitingWriter ω) (options : RelayOptions) (ring : Ring) (source : ρ)
    (sink : ω) : Outcome ρ ω :=
  runFrom ends wr options (start wr options ring source sink)

/-- How a relay with a ring of its own ended. -/
structure Pumped (ρ ω : Type) where
  result : Except RelayError RelayStats
  source : ρ
  sink : ω
  calls : Array Call
  events : Array Event

/-- What there is to tell of a relay when its ring is gone. -/
def Outcome.pumped (outcome : Outcome ρ ω) : Pumped ρ ω :=
  ⟨outcome.result, outcome.state.source, outcome.state.sink, outcome.state.calls,
    outcome.state.events⟩

/-- Relays through a new ring of `capacity` bytes. If there can be no such ring, no endpoint is
    called. -/
def pump (ends : rd.Ends) (wr : WaitingWriter ω) (options : RelayOptions) (memory capacity : Nat)
    (source : ρ) (sink : ω) : Pumped ρ ω :=
  match Ring.create memory capacity with
  | .error error => ⟨.error (.ring error), source, sink, #[], #[]⟩
  | .ok ring => (run ends wr options ring source sink).pumped

/-- The same with at most `n` rounds, whether or not the reader's stream ends. -/
def pumpWithin (rd : WaitingReader ρ) (wr : WaitingWriter ω) (options : RelayOptions)
    (memory capacity : Nat) (source : ρ) (sink : ω) (n : Nat) : Option (Pumped ρ ω) :=
  match Ring.create memory capacity with
  | .error error => some ⟨.error (.ring error), source, sink, #[], #[]⟩
  | .ok ring =>
    (runWithin rd wr options n (start wr options ring source sink)).map Outcome.pumped

end Relay

end RingRelay
