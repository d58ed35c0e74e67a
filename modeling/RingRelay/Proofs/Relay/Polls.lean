import RingRelay.Proofs.Endpoint.Raw
import RingRelay.Proofs.Relay.Conservation
/- A relay as a machine that polls one endpoint at a time.

   `Relay.rounds` goes on by whole rounds, and its endpoints answer sooner or later. The machine
   goes on by single polls, and its endpoints may stay not ready for ever. Between two polls a relay
   waits for one of its endpoints (`Stage`); `advance` is the next poll and all that the relay does
   on its own until the one after it.

   For endpoints that do answer both say the same: the machine comes by every place in which
   `rounds` stands (`exists_moments_eq_rounds`). -/
namespace RingRelay

namespace Relay

/-- What a relay waits for. -/
inductive Stage
  /-- For the reader, in a fill that has moved `total` bytes. -/
  | filling (total : Nat)
  /-- For the writer, in a drain that began with `pending` bytes and has moved `total`. -/
  | draining (pending total : Nat)
  /-- For the flush behind a drain to empty. -/
  | flushing
  /-- For the last flush. -/
  | finishing
  | ended (result : Except RelayError RelayStats)

/-- Where a relay stands between two polls. -/
structure Moment (ρ ω : Type) where
  state : State ρ ω
  stage : Stage

variable {ρ ω : Type}

namespace State

/-- The state after one answer of the reader. -/
def afterRead (s : State ρ ω) (a : Absorbed) (later : ρ) : State ρ ω :=
  { s with
    ring := a.ring
    source := later
    calls := s.calls.push a.call
    events := s.events ++ a.events }

/-- The state after one answer of the writer. -/
def afterWrite (s : State ρ ω) (a : Absorbed) (later : ω) : State ρ ω :=
  { s with
    ring := a.ring
    sink := later
    calls := s.calls.push a.call
    events := s.events ++ a.events }

end State

/-! ## What a relay does between polls -/

/-- Begins a fill. A full ring has no room to fill, which the relay takes for the end. -/
def enterFill (s : State ρ ω) : Moment ρ ω :=
  if 0 < s.ring.writableRun then ⟨s, .filling 0⟩ else ⟨s, .finishing⟩

/-- Drains what is in the ring, or begins a fill if there is nothing. -/
def enterDrain (s : State ρ ω) : Moment ρ ω :=
  if s.ring.size = 0 then enterFill s else ⟨s, .draining s.ring.size 0⟩

/-- Goes on after a fill of `n` bytes. -/
def filled (s : State ρ ω) (n : Nat) : Moment ρ ω :=
  if n = 0 then ⟨s, .finishing⟩ else enterDrain (s.countFill n)

/-- Goes on with a fill that has moved `total` bytes. -/
def fillOn (s : State ρ ω) (total : Nat) : Moment ρ ω :=
  if 0 < s.ring.writableRun then ⟨s, .filling total⟩ else filled s total

/-- Drains again and again until the ring is empty. -/
def emptyOn (options : RelayOptions) (s : State ρ ω) : Moment ρ ω :=
  if 0 < s.ring.size then ⟨s, .draining s.ring.size 0⟩
  else if options.flushOnDrain then ⟨s.countDrain, .flushing⟩
  else enterFill s.countDrain

/-- Goes on after a drain of `n` of `pending` bytes. -/
def drained (options : RelayOptions) (s : State ρ ω) (pending n : Nat) : Moment ρ ω :=
  if n = 0 then ⟨s, .ended (.error (.stalledWriter pending))⟩
  else emptyOn options (s.countTaken n)

/-- Goes on with a drain that has moved `total` of `pending` bytes. -/
def drainOn (options : RelayOptions) (s : State ρ ω) (pending total : Nat) : Moment ρ ω :=
  if 0 < s.ring.readableRun then ⟨s, .draining pending total⟩ else drained options s pending total

/-! ## Polls -/

/-- Polls the reader, in a fill that has moved `total` bytes. -/
def pollFill (rd : RawReader ρ) (s : State ρ ω) (total : Nat) : Moment ρ ω :=
  match rd.poll s.source s.ring.writableRun with
  | (.pending, later) => ⟨{ s with source := later }, .filling total⟩
  | (.ready answer, later) =>
    let a := s.ring.absorbRead answer total
    match a.step with
    | .more => fillOn (s.afterRead a later) (total + a.moved)
    | .done => filled (s.afterRead a later) (total + a.moved)
    | .failed error => ⟨s.afterRead a later, .ended (.error (.ring error))⟩

/-- Polls the writer, in a drain that has moved `total` of `pending` bytes. -/
def pollDrain (wr : RawWriter ω) (options : RelayOptions) (s : State ρ ω) (pending total : Nat) :
    Moment ρ ω :=
  match wr.poll s.sink s.ring.readable with
  | (.pending, later) => ⟨{ s with sink := later }, .draining pending total⟩
  | (.ready answer, later) =>
    let a := s.ring.absorbWrite answer total
    match a.step with
    | .more => drainOn options (s.afterWrite a later) pending (total + a.moved)
    | .done => drained options (s.afterWrite a later) pending (total + a.moved)
    | .failed error => ⟨s.afterWrite a later, .ended (.error (.ring error))⟩

/-- Polls the flush of the writer, after which the relay goes on by `next`. -/
def pollFlush (wr : RawWriter ω) (s : State ρ ω) (stage : Stage)
    (next : State ρ ω → Moment ρ ω) : Moment ρ ω :=
  match wr.flush s.sink with
  | (.pending, later) => ⟨{ s with sink := later }, stage⟩
  | (.ready (.ok ()), later) => next (s.afterFlush (.ok ()) later)
  | (.ready (.error cause), later) =>
    ⟨s.afterFlush (.error cause) later, .ended (.error (.flush cause))⟩

/-- The end of a relay that went well. -/
def succeed (s : State ρ ω) : Moment ρ ω :=
  ⟨{ s with events := s.events.push (.relayFinished s.stats) }, .ended (.ok s.stats)⟩

/-- One poll of the endpoint that the relay waits for. -/
def advance (rd : RawReader ρ) (wr : RawWriter ω) (options : RelayOptions) (m : Moment ρ ω) :
    Moment ρ ω :=
  match m.stage with
  | .filling total => pollFill rd m.state total
  | .draining pending total => pollDrain wr options m.state pending total
  | .flushing => pollFlush wr m.state .flushing enterFill
  | .finishing => pollFlush wr m.state .finishing succeed
  | .ended _ => m

/-- Where a relay stands after `n` polls. -/
def moments (rd : RawReader ρ) (wr : RawWriter ω) (options : RelayOptions) (ring : Ring)
    (source : ρ) (sink : ω) : Nat → Moment ρ ω
  | 0 => enterDrain (initial ring source sink)
  | n + 1 => advance rd wr options (moments rd wr options ring source sink n)

/-! ## Where rounds stand -/

/-- Some polls lead from one place to another. -/
inductive Reaches (rd : RawReader ρ) (wr : RawWriter ω) (options : RelayOptions) :
    Moment ρ ω → Moment ρ ω → Prop
  | refl (m : Moment ρ ω) : Reaches rd wr options m m
  | poll {m m' : Moment ρ ω} (rest : Reaches rd wr options (advance rd wr options m) m') :
      Reaches rd wr options m m'

theorem Reaches.trans {rd : RawReader ρ} {wr : RawWriter ω} {options : RelayOptions}
    {m m' m'' : Moment ρ ω} (h₁ : Reaches rd wr options m m') (h₂ : Reaches rd wr options m' m'') :
    Reaches rd wr options m m'' := by
  induction h₁ with
  | refl => exact h₂
  | poll _ ih => exact .poll (ih h₂)

theorem Reaches.exists_moments {rd : RawReader ρ} {wr : RawWriter ω} {options : RelayOptions}
    {ring : Ring} {source : ρ} {sink : ω} {n : Nat} {m : Moment ρ ω}
    (h : Reaches rd wr options (moments rd wr options ring source sink n) m) :
    ∃ k, moments rd wr options ring source sink k = m := by
  generalize hm : moments rd wr options ring source sink n = first at h
  induction h generalizing n with
  | refl => exact ⟨n, hm⟩
  | @poll m m' _ ih =>
    have hnext : moments rd wr options ring source sink (n + 1) = advance rd wr options m := by
      rw [moments, hm]
    exact ih hnext

variable {rd : WaitingReader ρ} {wr : WaitingWriter ω} {options : RelayOptions}

theorem append_append {α : Type} (a : Array α) (l l' : List α) : a ++ l ++ l' = a ++ (l ++ l') := by
  apply Array.toList_inj.mp
  simp

theorem afterFill_afterRead (s : State ρ ω) (a : Absorbed) (later : ρ) (t : Transfer ρ) :
    (s.afterRead a later).afterFill t = s.afterFill (t.after a) := by
  simp [State.afterRead, State.afterFill, Transfer.after, append_append]

theorem afterDrain_afterWrite (s : State ρ ω) (a : Absorbed) (later : ω) (t : Transfer ω) :
    (s.afterWrite a later).afterDrain t = s.afterDrain (t.after a) := by
  simp [State.afterWrite, State.afterDrain, Transfer.after, append_append]

theorem afterRead_eq (s : State ρ ω) (a : Absorbed) (later : ρ) (result : Except RingError Nat) :
    s.afterRead a later = s.afterFill (a.finish later result) := by
  simp [State.afterRead, State.afterFill, Absorbed.finish]

theorem afterWrite_eq (s : State ρ ω) (a : Absorbed) (later : ω)
    (result : Except RingError Nat) :
    s.afterWrite a later = s.afterDrain (a.finish later result) := by
  simp [State.afterWrite, State.afterDrain, Absorbed.finish]

/-- Where a relay stands after a fill. -/
def fillEnd (s : State ρ ω) (t : Transfer ρ) : Moment ρ ω :=
  match t.result with
  | .ok n => filled (s.afterFill t) n
  | .error error => ⟨s.afterFill t, .ended (.error (.ring error))⟩

/-- Where a relay stands after a drain. -/
def drainEnd (options : RelayOptions) (s : State ρ ω) (pending : Nat) (t : Transfer ω) :
    Moment ρ ω :=
  match t.result with
  | .ok n => drained options (s.afterDrain t) pending n
  | .error error => ⟨s.afterDrain t, .ended (.error (.ring error))⟩

theorem fillEnd_after (s : State ρ ω) (a : Absorbed) (later : ρ) (t : Transfer ρ) :
    fillEnd (s.afterRead a later) t = fillEnd s (t.after a) := by
  unfold fillEnd
  rw [afterFill_afterRead, Transfer.result_after]

theorem drainEnd_after (s : State ρ ω) (pending : Nat) (a : Absorbed) (later : ω) (t : Transfer ω) :
    drainEnd options (s.afterWrite a later) pending t = drainEnd options s pending (t.after a) := by
  unfold drainEnd
  rw [afterDrain_afterWrite, Transfer.result_after]

theorem reaches_fill (rd : WaitingReader ρ) (wr : RawWriter ω) (options : RelayOptions)
    (s : State ρ ω) (total : Nat) :
    Reaches rd.raw wr options (fillOn s total)
      (fillEnd s (s.ring.fillWaitingFrom rd s.source total)) := by
  -- The induction is on the fill, whose ring and source are then those of the state at each turn.
  generalize hring : s.ring = ring, hsource : s.source = source
  fun_induction Ring.fillWaitingFrom rd ring source total generalizing s with
  | case1 ring source total hrun later hp ih =>
    subst hring hsource
    rw [fillOn, if_pos hrun]
    refine .poll ?_
    have hstep : advance rd.raw wr options ⟨s, .filling total⟩ =
        fillOn { s with source := later } total := by
      simp only [advance, pollFill, WaitingReader.raw, hp, fillOn, if_pos hrun]
    rw [hstep]
    exact ih { s with source := later } rfl rfl
  | case2 ring source total hrun answer later hp a ha ih =>
    subst hring hsource
    rw [fillOn, if_pos hrun, ← fillEnd_after s a later]
    refine .poll ?_
    have hstep : advance rd.raw wr options ⟨s, .filling total⟩ =
        fillOn (s.afterRead a later) (total + a.moved) := by
      simp only [advance, pollFill, WaitingReader.raw, hp]
      rw [show (s.ring.absorbRead answer total).step = .more from ha]
    rw [hstep]
    exact ih (s.afterRead a later) rfl rfl
  | case3 ring source total hrun answer later hp a ha =>
    subst hring hsource
    rw [fillOn, if_pos hrun]
    refine .poll ?_
    have hstep : advance rd.raw wr options ⟨s, .filling total⟩ =
        fillEnd s (a.finish later (.ok (total + a.moved))) := by
      simp only [advance, pollFill, WaitingReader.raw, hp]
      rw [show (s.ring.absorbRead answer total).step = .done from ha]
      exact congrArg (filled · _) (afterRead_eq s a later _)
    rw [hstep]
    exact .refl _
  | case4 ring source total hrun answer later hp a error ha =>
    subst hring hsource
    rw [fillOn, if_pos hrun]
    refine .poll ?_
    have hstep : advance rd.raw wr options ⟨s, .filling total⟩ =
        fillEnd s (a.finish later (.error error)) := by
      simp only [advance, pollFill, WaitingReader.raw, hp]
      rw [show (s.ring.absorbRead answer total).step = .failed error from ha]
      exact congrArg (Moment.mk · _) (afterRead_eq s a later _)
    rw [hstep]
    exact .refl _
  | case5 ring source total hrun =>
    subst hring hsource
    rw [fillOn, if_neg hrun]
    have hidle : s.afterFill (s.ring.idle s.source total) = s := by
      simp [State.afterFill, Ring.idle]
    rw [fillEnd, hidle]
    exact .refl _

theorem reaches_drain (rd : RawReader ρ) (wr : WaitingWriter ω) (options : RelayOptions)
    (s : State ρ ω) (pending total : Nat) :
    Reaches rd wr.raw options (drainOn options s pending total)
      (drainEnd options s pending (s.ring.drainWaitingFrom wr s.sink total)) := by
  generalize hring : s.ring = ring, hsink : s.sink = sink
  fun_induction Ring.drainWaitingFrom wr ring sink total generalizing s with
  | case1 ring sink total hrun later hp ih =>
    subst hring hsink
    rw [drainOn, if_pos hrun]
    refine .poll ?_
    have hstep : advance rd wr.raw options ⟨s, .draining pending total⟩ =
        drainOn options { s with sink := later } pending total := by
      simp only [advance, pollDrain, WaitingWriter.raw, hp, drainOn, if_pos hrun]
    rw [hstep]
    exact ih { s with sink := later } rfl rfl
  | case2 ring sink total hrun answer later hp a ha ih =>
    subst hring hsink
    rw [drainOn, if_pos hrun, ← drainEnd_after s pending a later]
    refine .poll ?_
    have hstep : advance rd wr.raw options ⟨s, .draining pending total⟩ =
        drainOn options (s.afterWrite a later) pending (total + a.moved) := by
      simp only [advance, pollDrain, WaitingWriter.raw, hp]
      rw [show (s.ring.absorbWrite answer total).step = .more from ha]
    rw [hstep]
    exact ih (s.afterWrite a later) rfl rfl
  | case3 ring sink total hrun answer later hp a ha =>
    subst hring hsink
    rw [drainOn, if_pos hrun]
    refine .poll ?_
    have hstep : advance rd wr.raw options ⟨s, .draining pending total⟩ =
        drainEnd options s pending (a.finish later (.ok (total + a.moved))) := by
      simp only [advance, pollDrain, WaitingWriter.raw, hp]
      rw [show (s.ring.absorbWrite answer total).step = .done from ha]
      exact congrArg (drained options · pending _) (afterWrite_eq s a later _)
    rw [hstep]
    exact .refl _
  | case4 ring sink total hrun answer later hp a error ha =>
    subst hring hsink
    rw [drainOn, if_pos hrun]
    refine .poll ?_
    have hstep : advance rd wr.raw options ⟨s, .draining pending total⟩ =
        drainEnd options s pending (a.finish later (.error error)) := by
      simp only [advance, pollDrain, WaitingWriter.raw, hp]
      rw [show (s.ring.absorbWrite answer total).step = .failed error from ha]
      exact congrArg (Moment.mk · _) (afterWrite_eq s a later _)
    rw [hstep]
    exact .refl _
  | case5 ring sink total hrun =>
    subst hring hsink
    rw [drainOn, if_neg hrun]
    have hidle : s.afterDrain (s.ring.idle s.sink total) = s := by
      simp [State.afterDrain, Ring.idle]
    rw [drainEnd, hidle]
    exact .refl _

/-- The place where a progress stands: a relay that goes on begins a fill. -/
def Progress.moment : Progress ρ ω → Moment ρ ω
  | .running s => enterFill s
  | .ended s result => ⟨s, .ended result⟩

theorem enterFill_eq (s : State ρ ω) : enterFill s = fillOn s 0 := rfl

/-- Where a relay stands once the ring has been drained, or has not. -/
def emptyEnd (options : RelayOptions) : Progress ρ ω → Moment ρ ω
  | .running s => emptyOn options s
  | .ended s result => ⟨s, .ended result⟩

theorem reaches_emptyInto (rd : RawReader ρ) (wr : WaitingWriter ω) (options : RelayOptions)
    (s : State ρ ω) :
    Reaches rd wr.raw options (emptyOn options s) (emptyEnd options (emptyInto wr s)) := by
  have hdrain : ∀ s : State ρ ω, 0 < s.ring.size → Reaches rd wr.raw options (emptyOn options s)
      (drainEnd options s s.ring.size (s.ring.drainWaiting wr s.sink)) := by
    intro s hsize
    have hrun : 0 < s.ring.readableRun := by
      have := Ring.readableRun_eq_zero_iff s.ring
      omega
    have h := reaches_drain rd wr options s s.ring.size 0
    rwa [drainOn, if_pos hrun, ← if_pos (t := Moment.mk s (.draining s.ring.size 0)) hsize] at h
  fun_induction emptyInto wr s with
  | case1 s hsize error h =>
    have hfirst := hdrain s hsize
    rwa [drainEnd, h] at hfirst
  | case2 s hsize h =>
    have hfirst := hdrain s hsize
    rwa [drainEnd, h] at hfirst
  | case3 s hsize n h ih =>
    have hfirst := hdrain s hsize
    rw [drainEnd, h] at hfirst
    exact hfirst.trans ih
  | case4 s hsize => exact .refl _

/-- A flush that is answered at once. -/
theorem pollFlush_raw (wr : WaitingWriter ω) (s : State ρ ω) (stage : Stage)
    (next : State ρ ω → Moment ρ ω) :
    pollFlush wr.raw s stage next =
      match flushSink wr s with
      | .running s' => next s'
      | .ended s' result => ⟨s', .ended result⟩ := by
  unfold pollFlush flushSink
  rcases hf : wr.flush s.sink with ⟨answer, later⟩
  cases answer with
  | ok => simp only [WaitingWriter.raw, hf]
  | error cause => simp only [WaitingWriter.raw, hf]

theorem reaches_flush (rd : RawReader ρ) (wr : WaitingWriter ω) (options : RelayOptions)
    (s : State ρ ω) :
    Reaches rd wr.raw options ⟨s, .flushing⟩ (flushSink wr s).moment := by
  refine .poll ?_
  show Reaches rd wr.raw options (pollFlush wr.raw s .flushing enterFill) _
  rw [pollFlush_raw]
  exact .refl _

theorem reaches_finish (rd : RawReader ρ) (wr : WaitingWriter ω) (options : RelayOptions)
    (s : State ρ ω) :
    Reaches rd wr.raw options ⟨s, .finishing⟩ (finish wr s).moment := by
  refine .poll ?_
  show Reaches rd wr.raw options (pollFlush wr.raw s .finishing succeed) _
  rw [pollFlush_raw]
  unfold finish
  cases flushSink wr s with
  | running s' => exact .refl _
  | ended s' result => exact .refl _

theorem reaches_drainAll (rd : RawReader ρ) (wr : WaitingWriter ω) (options : RelayOptions)
    (s : State ρ ω) :
    Reaches rd wr.raw options (enterDrain s) (drainAll wr options s).moment := by
  unfold drainAll
  split
  · next hsize =>
    rw [enterDrain, if_pos hsize]
    exact .refl _
  · next hsize =>
    have hempty := reaches_emptyInto rd wr options s
    have hstart : enterDrain s = emptyOn options s := by
      rw [enterDrain, if_neg hsize, emptyOn, if_pos (Nat.pos_of_ne_zero hsize)]
    rw [hstart]
    split
    · next s' result h =>
      rw [h] at hempty
      exact hempty
    · next s' h =>
      -- The machine is done with the drain only because the ring is empty.
      have hnone : ¬0 < s'.ring.size := by
        have hdrained := drained_emptyInto wr s
        rw [h] at hdrained
        exact Nat.not_lt.mpr (Nat.le_of_eq hdrained)
      have hback : emptyOn options s' = if options.flushOnDrain then ⟨s'.countDrain, .flushing⟩
          else enterFill s'.countDrain := by
        rw [emptyOn, if_neg hnone]
      rw [h, emptyEnd, hback] at hempty
      split
      · next hflush =>
        rw [if_pos hflush] at hempty
        exact hempty.trans (reaches_flush rd wr options s'.countDrain)
      · next hflush =>
        rw [if_neg hflush] at hempty
        exact hempty

theorem reaches_round (rd : WaitingReader ρ) (wr : WaitingWriter ω) (options : RelayOptions)
    (s : State ρ ω) :
    Reaches rd.raw wr.raw options (enterFill s) (round rd wr options s).moment := by
  have hfill := reaches_fill rd wr.raw options s 0
  rw [← enterFill_eq] at hfill
  unfold round
  split
  · next error h =>
    rw [fillEnd, show (s.ring.fillWaitingFrom rd s.source 0).result = .error error from h] at hfill
    exact hfill
  · next h =>
    rw [fillEnd, show (s.ring.fillWaitingFrom rd s.source 0).result = .ok 0 from h] at hfill
    exact hfill.trans (reaches_finish rd.raw wr options _)
  · next n h =>
    rw [fillEnd, show (s.ring.fillWaitingFrom rd s.source 0).result = .ok (n + 1) from h] at hfill
    exact hfill.trans (reaches_drainAll rd.raw wr options _)

/-- The machine comes by every place in which a relay stands after some number of rounds. -/
theorem exists_moments_eq_rounds (rd : WaitingReader ρ) (wr : WaitingWriter ω)
    (options : RelayOptions) (ring : Ring) (source : ρ) (sink : ω) (n : Nat) :
    ∃ k, moments rd.raw wr.raw options ring source sink k =
      (rounds rd wr options ring source sink n).moment := by
  induction n with
  | zero =>
    refine Reaches.exists_moments (n := 0) ?_
    exact reaches_drainAll rd.raw wr options (initial ring source sink)
  | succ n ih =>
    obtain ⟨k, hk⟩ := ih
    unfold rounds
    cases h : rounds rd wr options ring source sink n with
    | running s =>
      rw [h, Progress.moment] at hk
      refine Reaches.exists_moments (n := k) ?_
      rw [hk]
      exact reaches_round rd wr options s
    | ended s result =>
      rw [h] at hk
      exact ⟨k, hk⟩

end Relay

end RingRelay
