import RingRelay.Proofs.Relay.Advances
import RingRelay.Proofs.Ring.Record
/- What a relay reports of itself.

   A relay reports each fill that has brought something, when it is over, and at a good end its
   counts; the other events are those of its transfers. A fill begins with an empty ring, so what it
   has staged is all that is in the ring (`Chronicle`). The fills are read off the stages that the
   relay goes through (`fillsUpTo`), or off the results of its fills round by round (`fillResults`). -/
namespace RingRelay

/-- The events that are about a relay. -/
def relayEvents (events : List Event) : List Event :=
  events.filter fun event => event.target = "bytering.relay"

@[simp] theorem relayEvents_append (events more : List Event) :
    relayEvents (events ++ more) = relayEvents events ++ relayEvents more :=
  List.filter_append ..

theorem relayEvents_of_ring {events : List Event}
    (h : ∀ event ∈ events, event.target = "bytering.ring") : relayEvents events = [] := by
  refine List.filter_eq_nil_iff.mpr fun event hmem => ?_
  simp [h event hmem]

theorem relayEvents_staged (count size : Nat) :
    relayEvents [.staged count size] = [.staged count size] := by
  simp [relayEvents, Event.target]

theorem relayEvents_relayFinished (stats : RelayStats) :
    relayEvents [.relayFinished stats] = [.relayFinished stats] := by
  simp [relayEvents, Event.target]

theorem filterMap_range_succ {α : Type} (f : Nat → Option α) (n : Nat) :
    (List.range (n + 1)).filterMap f = (List.range n).filterMap f ++ (f n).toList := by
  rw [List.range_succ, List.filterMap_append]
  cases h : f n <;> simp [h]

namespace Relay

variable {ρ ω : Type}

/-- What is reported last at a stage, if anything. -/
def Stage.closing : Stage → List Event
  | .ended (.ok stats) => [.relayFinished stats]
  | _ => []

/-- What is reported of a relay that began with the ring `first` and whose fills have brought as many
    bytes as `sizes` says. -/
structure Chronicle (first : Ring) (m : Moment ρ ω) (sizes : List Nat) : Prop where
  events_eq : relayEvents m.state.events.toList =
    sizes.map (fun size => .staged size size) ++ m.stage.closing
  pos : ∀ size ∈ sizes, 0 < size
  fills_eq : sizes.length = m.state.stats.fills
  bytesIn_eq : first.size + sizes.sum = m.state.stats.bytesIn
  /-- The counts that are returned are reported, and nothing behind them. -/
  last : ∀ stats, m.stage = .ended (.ok stats) →
    stats = m.state.stats ∧ ∃ before, m.state.events.toList = before ++ [.relayFinished stats]

/-! ## Poll by poll -/

/-- What a fill has brought that was over with one poll. -/
def fillBetween (m m' : Moment ρ ω) : Option Nat :=
  match m.stage, m'.stage with
  | .filling _, .draining pending _ => some pending
  | _, _ => none

/-- What the fills have brought that were over after `n` polls, in order. -/
def fillsUpTo (rd : RawReader ρ) (wr : RawWriter ω) (options : RelayOptions) (ring : Ring)
    (source : ρ) (sink : ω) (n : Nat) : List Nat :=
  (List.range n).filterMap fun k => fillBetween (moments rd wr options ring source sink k)
    (moments rd wr options ring source sink (k + 1))

variable {rd : RawReader ρ} {wr : RawWriter ω} {options : RelayOptions} {first : Ring}
  {sizes : List Nat}

/-- A poll behind which the relay goes on or has failed, and that has not ended a fill, reports
    nothing of the relay. -/
theorem Chronicle.quiet {s s' : State ρ ω} {stage stage' : Stage}
    (h : Chronicle first ⟨s, stage⟩ sizes) (hgoes : stage.closing = []) (hgoes' : stage'.closing = [])
    (hfill : fillBetween ⟨s, stage⟩ ⟨s', stage'⟩ = none)
    (hfills : s'.stats.fills = s.stats.fills) (hbytes : s'.stats.bytesIn = s.stats.bytesIn)
    (hevents : relayEvents s'.events.toList = relayEvents s.events.toList) :
    Chronicle first ⟨s', stage'⟩ (sizes ++ (fillBetween ⟨s, stage⟩ ⟨s', stage'⟩).toList) := by
  have heq : relayEvents s.events.toList = _ ++ stage.closing := h.events_eq
  rw [hgoes, ← hevents, ← hgoes'] at heq
  rw [hfill, Option.toList_none, List.append_nil]
  refine ⟨heq, h.pos, h.fills_eq.trans hfills.symm, h.bytesIn_eq.trans hbytes.symm, ?_⟩
  rintro stats (hended : stage' = _)
  rw [hended] at hgoes'
  cases hgoes'

section Answers

variable {s : State ρ ω} {total : Nat} {a : Absorbed} {source : ρ} {sink : ω}

theorem State.Reads.relayEvents_eq (h : s.Reads rd total a source) :
    relayEvents (s.afterRead a source).events.toList = relayEvents s.events.toList := by
  have hring : relayEvents a.events = [] := by
    cases h
    exact relayEvents_of_ring (Ring.reports_absorbRead ..).target
  simp [State.afterRead, hring]

theorem State.Writes.relayEvents_eq (h : s.Writes wr total a sink) :
    relayEvents (s.afterWrite a sink).events.toList = relayEvents s.events.toList := by
  have hring : relayEvents a.events = [] := by
    cases h
    exact relayEvents_of_ring (Ring.reports_absorbWrite ..).target
  simp [State.afterWrite, hring]

/-- A fill that is over, which began with an empty ring, is reported with what it has brought. -/
theorem Chronicle.staged (hm : Chronicle first ⟨s, .filling total⟩ sizes)
    (h : s.Reads rd total a source) (htotal : s.ring.size = total) (hsome : 0 < total + a.moved) :
    Chronicle first
      ⟨(s.afterRead a source).countFill (total + a.moved), .draining a.ring.size 0⟩
      (sizes ++ [a.ring.size]) := by
  have hsize : total + a.moved = a.ring.size := by rw [h.size, htotal]
  have hevents : relayEvents s.events.toList = sizes.map (fun size => .staged size size) ++ [] :=
    hm.events_eq
  have hfills : sizes.length = s.stats.fills := hm.fills_eq
  have hbytes : first.size + sizes.sum = s.stats.bytesIn := hm.bytesIn_eq
  rw [hsize] at hsome ⊢
  refine ⟨?_, ?_, ?_, ?_, nofun⟩
  · show relayEvents
        ((s.afterRead a source).events.push (.staged a.ring.size a.ring.size)).toList =
      (sizes ++ [a.ring.size]).map _ ++ []
    rw [Array.toList_push, relayEvents_append, h.relayEvents_eq, relayEvents_staged, hevents,
      List.append_nil, List.append_nil, List.map_append]
    rfl
  · exact List.forall_mem_append.mpr ⟨hm.pos, List.forall_mem_singleton.mpr hsome⟩
  · show (sizes ++ [a.ring.size]).length = s.stats.fills + 1
    rw [List.length_append, hfills]
    rfl
  · show first.size + (sizes ++ [a.ring.size]).sum = s.stats.bytesIn + a.ring.size
    rw [List.sum_append, List.sum_singleton, ← Nat.add_assoc, hbytes]

/-- A relay that has ended well reports its counts last. -/
theorem Chronicle.finished (hm : Chronicle first ⟨s, .finishing⟩ sizes) (sink : ω) :
    Chronicle first (succeed (s.afterFlush (.ok ()) sink)) sizes := by
  have hevents : relayEvents s.events.toList = sizes.map (fun size => .staged size size) ++ [] :=
    hm.events_eq
  refine ⟨?_, hm.pos, hm.fills_eq, hm.bytesIn_eq, ?_⟩
  · show relayEvents (s.events.push (.relayFinished s.stats)).toList = _ ++ [.relayFinished s.stats]
    rw [Array.toList_push, relayEvents_append, relayEvents_relayFinished, hevents, List.append_nil]
  · rintro stats hended
    obtain rfl : s.stats = stats := Except.ok.inj (Stage.ended.inj hended)
    exact ⟨rfl, s.events.toList, Array.toList_push⟩

end Answers

theorem Stage.closing_behindDrain (options : RelayOptions) :
    (Stage.behindDrain options).closing = [] := by
  unfold Stage.behindDrain
  split <;> rfl

/-- Every poll goes on with the chronicle. -/
theorem Advances.chronicle {m m' : Moment ρ ω} (h : Advances rd wr options m m')
    (hsized : m.Sized) (hm : Chronicle first m sizes) :
    Chronicle first m' (sizes ++ (fillBetween m m').toList) := by
  cases h with
  | readerWaits => exact hm.quiet rfl rfl rfl rfl rfl rfl
  | readsOn h => exact hm.quiet rfl rfl rfl rfl rfl h.relayEvents_eq
  | fills h _ hsome => exact hm.staged h hsized.1 hsome
  | endsStream h => exact hm.quiet rfl rfl rfl rfl rfl h.relayEvents_eq
  | readFails h => exact hm.quiet rfl rfl rfl rfl rfl h.relayEvents_eq
  | writerWaits => exact hm.quiet rfl rfl rfl rfl rfl rfl
  | writesOn h => exact hm.quiet rfl rfl rfl rfl rfl h.relayEvents_eq
  | drainsAgain h => exact hm.quiet rfl rfl rfl rfl rfl h.relayEvents_eq
  | empties h => exact hm.quiet rfl (Stage.closing_behindDrain options) rfl rfl rfl h.relayEvents_eq
  | stalls h => exact hm.quiet rfl rfl rfl rfl rfl h.relayEvents_eq
  | writeFails h => exact hm.quiet rfl rfl rfl rfl rfl h.relayEvents_eq
  | flushWaits hstage =>
    rcases hstage with rfl | rfl
    · exact hm.quiet rfl rfl rfl rfl rfl rfl
    · exact hm.quiet rfl rfl rfl rfl rfl rfl
  | flushes => exact hm.quiet rfl rfl rfl rfl rfl rfl
  | @finishes s later =>
    rw [show fillBetween _ _ = none from rfl, Option.toList_none, List.append_nil]
    exact hm.finished later
  | flushFails hstage =>
    rcases hstage with rfl | rfl
    · exact hm.quiet rfl rfl rfl rfl rfl rfl
    · exact hm.quiet rfl rfl rfl rfl rfl rfl
  | stays =>
    rw [show fillBetween _ _ = none from rfl, Option.toList_none, List.append_nil]
    exact hm

theorem chronicle_moments (rd : RawReader ρ) (wr : RawWriter ω) (options : RelayOptions)
    (ring : Ring) (source : ρ) (sink : ω) (n : Nat) :
    Chronicle ring (moments rd wr options ring source sink n)
      (fillsUpTo rd wr options ring source sink n) := by
  induction n with
  | zero =>
    show Chronicle ring (enterDrain (initial ring source sink)) []
    unfold enterDrain
    split
    · next hempty =>
      rw [enterFill_of_empty hempty]
      exact ⟨rfl, nofun, rfl, rfl, nofun⟩
    · exact ⟨rfl, nofun, rfl, rfl, nofun⟩
  | succ n ih =>
    have hsized := sized_moments rd wr options ring source sink n
    have hnext := (advances_advance rd wr options hsized).chronicle hsized ih
    rw [fillsUpTo, filterMap_range_succ]
    exact hnext

/-! ## Round by round -/

section Rounds

variable {rd : WaitingReader ρ} {wr : WaitingWriter ω}

/-- What a fill has brought that returned this, if it has brought something. -/
def brought? : Except RingError Nat → Option Nat
  | .ok (n + 1) => some (n + 1)
  | _ => none

/-- What the fill of the next round brings. -/
def Progress.fill? (rd : WaitingReader ρ) : Progress ρ ω → Option Nat
  | .running s => brought? (s.ring.fillWaiting rd s.source).result
  | .ended _ _ => none

/-- What the fills of the first `n` rounds have brought that have brought something, in order. -/
def fillResults (rd : WaitingReader ρ) (wr : WaitingWriter ω) (options : RelayOptions) (ring : Ring)
    (source : ρ) (sink : ω) (n : Nat) : List Nat :=
  (List.range n).filterMap fun k => (rounds rd wr options ring source sink k).fill? rd

def Progress.closing : Progress ρ ω → List Event
  | .ended _ (.ok stats) => [.relayFinished stats]
  | _ => []

theorem relayEvents_afterFill (rd : WaitingReader ρ) (s : State ρ ω) :
    relayEvents (s.afterFill (s.ring.fillWaiting rd s.source)).events.toList =
      relayEvents s.events.toList := by
  have hring := relayEvents_of_ring (s.ring.report_fillWaiting rd s.source).target
  simp [State.afterFill, hring]

theorem relayEvents_afterDrain (wr : WaitingWriter ω) (s : State ρ ω) :
    relayEvents (s.afterDrain (s.ring.drainWaiting wr s.sink)).events.toList =
      relayEvents s.events.toList := by
  have hring := relayEvents_of_ring (s.ring.report_drainWaiting wr s.sink).target
  simp [State.afterDrain, hring]

/-- A piece of a relay that leads from `s` to `progress` reports this of the relay. -/
def Tells (s : State ρ ω) (progress : Progress ρ ω) (events : List Event) : Prop :=
  relayEvents progress.state.events.toList =
    relayEvents s.events.toList ++ (events ++ progress.closing)

theorem Tells.trans {s s' : State ρ ω} {progress : Progress ρ ω} {events more : List Event}
    (h : Tells s (.running s') events) (h' : Tells s' progress more) :
    Tells s progress (events ++ more) := by
  have hfirst : relayEvents s'.events.toList = relayEvents s.events.toList ++ (events ++ []) := h
  unfold Tells at h' ⊢
  rw [h', hfirst, List.append_nil, List.append_assoc, List.append_assoc]

theorem Tells.quiet {s : State ρ ω} {progress : Progress ρ ω} (hgoes : progress.closing = [])
    (h : relayEvents progress.state.events.toList = relayEvents s.events.toList) :
    Tells s progress [] := by
  unfold Tells
  rw [h, hgoes, List.append_nil, List.append_nil]

theorem tells_emptyInto (wr : WaitingWriter ω) (s : State ρ ω) : Tells s (emptyInto wr s) [] := by
  fun_induction emptyInto wr s with
  | case1 s => exact .quiet rfl (relayEvents_afterDrain wr s)
  | case2 s => exact .quiet rfl (relayEvents_afterDrain wr s)
  | case3 s _ n _ ih =>
    have hfirst : Tells s
        (.running ((s.afterDrain (s.ring.drainWaiting wr s.sink)).countTaken (n + 1))) [] :=
      .quiet rfl (relayEvents_afterDrain wr s)
    exact hfirst.trans ih
  | case4 s => exact .quiet rfl rfl

theorem tells_flushSink (wr : WaitingWriter ω) (s : State ρ ω) : Tells s (flushSink wr s) [] := by
  unfold flushSink
  split
  · exact .quiet rfl rfl
  · exact .quiet rfl rfl

theorem tells_drainAll (wr : WaitingWriter ω) (options : RelayOptions) (s : State ρ ω) :
    Tells s (drainAll wr options s) [] := by
  have hempty := tells_emptyInto wr s
  unfold drainAll
  split
  · exact .quiet rfl rfl
  · split
    · next s' result h =>
      rw [h] at hempty
      exact hempty
    · next s' h =>
      rw [h] at hempty
      have hdrained : Tells s (.running s'.countDrain) [] := hempty
      split
      · exact hdrained.trans (tells_flushSink wr s'.countDrain)
      · exact hdrained

theorem tells_finish (wr : WaitingWriter ω) (s : State ρ ω) : Tells s (finish wr s) [] := by
  have hflush := tells_flushSink wr s
  unfold finish
  split
  · next s' result h =>
    rw [h] at hflush
    exact hflush
  · next s' h =>
    rw [h] at hflush
    have hreport : Tells s' (.ended { s' with events := s'.events.push (.relayFinished s'.stats) }
        (.ok s'.stats)) [] := by
      show relayEvents (s'.events.push (.relayFinished s'.stats)).toList =
        _ ++ [.relayFinished s'.stats]
      rw [Array.toList_push, relayEvents_append, relayEvents_relayFinished]
    exact hflush.trans hreport

/-- What a fill of an empty ring returns is what is then in the ring. -/
theorem size_fillWaiting_of_ok {ring : Ring} {source : ρ} {n : Nat} (hsize : ring.size = 0)
    (h : (ring.fillWaiting rd source).result = .ok n) :
    (ring.fillWaiting rd source).ring.size = n := by
  have hmoves := Ring.moves_fillWaitingFrom rd ring source 0
  have hcount := hmoves.counts
  have hlength := congrArg List.length hmoves.conserves
  rw [show (ring.fillWaitingFrom rd source 0).result = .ok n from h] at hcount
  have hnone : acknowledged (ring.fillWaitingFrom rd source 0).calls = [] :=
    (Ring.served_fillWaitingFrom rd ring source 0).flatMap_eq_nil WaitingReader.Turn.acknowledged
  simp only [hnone, Counts, List.length_append, Ring.length_contents, List.length_nil]
    at hcount hlength
  show (ring.fillWaitingFrom rd source 0).ring.size = n
  omega

theorem tells_round (rd : WaitingReader ρ) (wr : WaitingWriter ω) (options : RelayOptions)
    {s : State ρ ω} (hsize : s.ring.size = 0) :
    Tells s (round rd wr options s)
      ((brought? (s.ring.fillWaiting rd s.source).result).toList.map
        fun size => .staged size size) := by
  have hfill := relayEvents_afterFill rd s
  unfold round
  split
  · next error h =>
    rw [h]
    exact .quiet rfl hfill
  · next h =>
    rw [h]
    have hfilled : Tells s (.running (s.afterFill (s.ring.fillWaiting rd s.source))) [] :=
      .quiet rfl hfill
    exact hfilled.trans (tells_finish wr _)
  · next n h =>
    rw [h]
    have hstaged : Tells s
        (.running ((s.afterFill (s.ring.fillWaiting rd s.source)).countFill (n + 1)))
        [.staged (n + 1) (n + 1)] := by
      have hring : (s.afterFill (s.ring.fillWaiting rd s.source)).ring.size = n + 1 :=
        size_fillWaiting_of_ok hsize h
      show relayEvents (Array.push _ _).toList = _
      rw [hring, Array.toList_push, relayEvents_append, relayEvents_staged, hfill]
      rfl
    exact hstaged.trans (tells_drainAll wr options _)

theorem tells_rounds (rd : WaitingReader ρ) (wr : WaitingWriter ω) (options : RelayOptions)
    (ring : Ring) (source : ρ) (sink : ω) (n : Nat) :
    Tells (initial ring source sink) (rounds rd wr options ring source sink n)
      ((fillResults rd wr options ring source sink n).map fun size => .staged size size) := by
  induction n with
  | zero => exact tells_drainAll wr options (initial ring source sink)
  | succ n ih =>
    have hdrained := drained_rounds rd wr options ring source sink n
    unfold rounds
    rw [fillResults, filterMap_range_succ, List.map_append]
    cases h : rounds rd wr options ring source sink n with
    | running s =>
      rw [h] at ih hdrained
      exact ih.trans (tells_round rd wr options hdrained)
    | ended s result =>
      rw [h] at ih
      show Tells _ (.ended s result) (_ ++ [])
      rw [List.append_nil]
      exact ih

theorem closing_moment (progress : Progress ρ ω) :
    progress.moment.stage.closing = progress.closing := by
  cases progress with
  | running s =>
    show (enterFill s).stage.closing = []
    unfold enterFill
    split <;> rfl
  | ended s result => cases result <;> rfl

/-- The chronicle of a relay whose endpoints answer, by the results of its fills. -/
theorem chronicle_rounds (rd : WaitingReader ρ) (wr : WaitingWriter ω) (options : RelayOptions)
    (ring : Ring) (source : ρ) (sink : ω) (n : Nat) :
    Chronicle ring (rounds rd wr options ring source sink n).moment
      (fillResults rd wr options ring source sink n) := by
  obtain ⟨k, hk⟩ := exists_moments_eq_rounds rd wr options ring source sink n
  have hchronicle := chronicle_moments rd.raw wr.raw options ring source sink k
  rw [hk] at hchronicle
  -- Both ways to read the fills off the relay agree, for its events are the same.
  have hstate : (rounds rd wr options ring source sink n).moment.state =
      (rounds rd wr options ring source sink n).state := by
    cases rounds rd wr options ring source sink n with
    | running s =>
      show (enterFill s).state = s
      unfold enterFill
      split <;> rfl
    | ended s result => rfl
  have hevents := hchronicle.events_eq
  have htells : relayEvents _ = [] ++ _ := tells_rounds rd wr options ring source sink n
  rw [hstate, htells, closing_moment, List.nil_append] at hevents
  have hsame := (List.map_inj_right fun _ _ h => (Event.staged.inj h).1).mp
    (List.append_cancel_right hevents)
  rwa [hsame]

end Rounds

/-! ## The whole report -/

/-- The report of a relay, which began with the ring `first` and whose fills have brought as many
    bytes as `sizes` says. -/
structure Report (first : Ring) (m : Moment ρ ω) (sizes : List Nat) : Prop
    extends Chronicle first m sizes where
  /-- One event for each fill that has brought something, with all that is in the ring. -/
  traces_eq : (m.state.events.toList.filter fun event =>
    event.target = "bytering.relay" ∧ event.level = .trace) =
      sizes.map fun size => .staged size size
  /-- The counts are reported exactly if the relay returns them. -/
  finished_iff : ∀ stats, .relayFinished stats ∈ m.state.events.toList ↔
    m.stage = .ended (.ok stats)

theorem Stage.eq_of_mem_closing {stage : Stage} {event : Event} (h : event ∈ stage.closing) :
    ∃ stats, event = .relayFinished stats ∧ stage = .ended (.ok stats) := by
  unfold closing at h
  split at h
  · next stats => exact ⟨stats, List.mem_singleton.mp h, rfl⟩
  · cases h

theorem Chronicle.report {m : Moment ρ ω} (h : Chronicle first m sizes) :
    Report first m sizes := by
  refine ⟨h, ?_, fun stats => ⟨fun hmem => ?_, fun hended => ?_⟩⟩
  · have hsplit : (m.state.events.toList.filter fun event =>
        event.target = "bytering.relay" ∧ event.level = .trace) =
          (relayEvents m.state.events.toList).filter fun event => event.level = .trace := by
      simp [relayEvents, List.filter_filter, Bool.and_comm]
    rw [hsplit, h.events_eq, List.filter_append, List.filter_eq_self.mpr,
      List.filter_eq_nil_iff.mpr, List.append_nil]
    · intro event hmem
      obtain ⟨stats, rfl, _⟩ := Stage.eq_of_mem_closing hmem
      simp [Event.level]
    · intro event hmem
      obtain ⟨size, _, rfl⟩ := List.mem_map.mp hmem
      rfl
  · have hrelay : .relayFinished stats ∈ relayEvents m.state.events.toList :=
      List.mem_filter.mpr ⟨hmem, rfl⟩
    rw [h.events_eq] at hrelay
    rcases List.mem_append.mp hrelay with hstaged | hclosing
    · obtain ⟨size, _, heq⟩ := List.mem_map.mp hstaged
      cases heq
    · obtain ⟨stats', heq, hended⟩ := Stage.eq_of_mem_closing hclosing
      obtain rfl := Event.relayFinished.inj heq
      exact hended
  · obtain ⟨_, before, hevents⟩ := h.last stats hended
    rw [hevents]
    exact List.mem_concat_self

/-- The events are a faithful record. Those of a transfer are one for each call that was answered
    with a count and at most one more behind them, for the end of the stream, a short count or the
    failure that is returned; the accepted counts sum up to what is returned or reported with the
    failure. Those of a relay are one for each fill that has brought something, which is all that is
    then in the ring, and at a good end, as the last event, the counts that are returned. -/
theorem faithful_events :
    (∀ (ring : Ring) (ρ : Type) (source : ρ),
        (∀ rd : Reader ρ, (ring.fill rd source).Report rd.Turn .read source) ∧
          ∀ rd : WaitingReader ρ, (ring.fillWaiting rd source).Report rd.Turn .read source) ∧
      (∀ (ring : Ring) (ω : Type) (sink : ω),
        (∀ wr : Writer ω, (ring.drain wr sink).Report wr.Turn .write sink) ∧
          ∀ wr : WaitingWriter ω, (ring.drainWaiting wr sink).Report wr.Turn .write sink) ∧
      ∀ (ρ ω : Type) (options : RelayOptions) (ring : Ring) (source : ρ) (sink : ω) (n : Nat),
        (∀ (rd : RawReader ρ) (wr : RawWriter ω),
          Report ring (moments rd wr options ring source sink n)
            (fillsUpTo rd wr options ring source sink n)) ∧
          ∀ (rd : WaitingReader ρ) (wr : WaitingWriter ω),
            Report ring (rounds rd wr options ring source sink n).moment
              (fillResults rd wr options ring source sink n) := by
  refine ⟨?_, ?_, ?_⟩
  · intro ring ρ source
    exact ⟨fun rd => ring.report_fill rd source, fun rd => ring.report_fillWaiting rd source⟩
  · intro ring ω sink
    exact ⟨fun wr => ring.report_drain wr sink, fun wr => ring.report_drainWaiting wr sink⟩
  · intro ρ ω options ring source sink n
    exact ⟨fun rd wr => (chronicle_moments rd wr options ring source sink n).report,
      fun rd wr => (chronicle_rounds rd wr options ring source sink n).report⟩

end Relay

end RingRelay
