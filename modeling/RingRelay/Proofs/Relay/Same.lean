import RingRelay.Proofs.Guarded.Session
import RingRelay.Proofs.Ring.Same
/- What can be seen of a ring does not depend on its left-over bytes.

   A relay runs in two rings that hold the same: each piece of it takes related states to related
   ones (`State.Same`, `Progress.Same`), so after any number of rounds the two differ at most in
   bytes that are not live (`same_rounds`).

   `Ring.sights` is all that is seen of a use of a ring: what each action returns and counts, the
   endpoint calls and the events, and the endpoints as they are left. Two rings that hold the same
   show the same in every use (`indistinct_of_same`). -/
namespace RingRelay

namespace Relay

variable {ρ ω : Type} {rd : WaitingReader ρ} {s s' : State ρ ω}

/-- The states of two relays that did the same with rings that hold the same. -/
structure State.Same (s s' : State ρ ω) : Prop where
  ring : s.ring.Same s'.ring
  source : s'.source = s.source
  sink : s'.sink = s.sink
  stats : s'.stats = s.stats
  calls : s'.calls = s.calls
  events : s'.events = s.events

/-- Two relays that stand in the same place. -/
inductive Progress.Same : Progress ρ ω → Progress ρ ω → Prop
  | running {s s' : State ρ ω} (h : s.Same s') : Same (.running s) (.running s')
  | ended {s s' : State ρ ω} (h : s.Same s') (result : Except RelayError RelayStats) :
      Same (.ended s result) (.ended s' result)

namespace State.Same

theorem afterDrain (h : s.Same s') {t t' : Transfer ω} (ht : t.Alike t') :
    (s.afterDrain t).Same (s'.afterDrain t') where
  ring := ht.ring
  source := h.source
  sink := ht.endpoint
  stats := h.stats
  calls := by
    show s'.calls ++ t'.calls = s.calls ++ t.calls
    rw [h.calls, ht.calls]
  events := by
    show s'.events ++ t'.events = s.events ++ t.events
    rw [h.events, ht.events]

theorem afterFill (h : s.Same s') {t t' : Transfer ρ} (ht : t.Alike t') :
    (s.afterFill t).Same (s'.afterFill t') where
  ring := ht.ring
  source := ht.endpoint
  sink := h.sink
  stats := h.stats
  calls := by
    show s'.calls ++ t'.calls = s.calls ++ t.calls
    rw [h.calls, ht.calls]
  events := by
    show s'.events ++ t'.events = s.events ++ t.events
    rw [h.events, ht.events]

theorem afterFlush (h : s.Same s') (answer : FlushAnswer) (later : ω) :
    (s.afterFlush answer later).Same (s'.afterFlush answer later) where
  ring := h.ring
  source := h.source
  sink := rfl
  stats := h.stats
  calls := by
    show s'.calls.push (.flush answer) = s.calls.push (.flush answer)
    rw [h.calls]
  events := h.events

theorem countTaken (h : s.Same s') (n : Nat) : (s.countTaken n).Same (s'.countTaken n) :=
  { h with
    stats := by
      show { s'.stats with bytesOut := s'.stats.bytesOut + n } = _
      rw [h.stats]
      rfl }

theorem countDrain (h : s.Same s') : s.countDrain.Same s'.countDrain :=
  { h with
    stats := by
      show { s'.stats with drains := s'.stats.drains + 1 } = _
      rw [h.stats]
      rfl }

theorem countFill (h : s.Same s') (n : Nat) : (s.countFill n).Same (s'.countFill n) :=
  { h with
    stats := by
      show { s'.stats with bytesIn := s'.stats.bytesIn + n, fills := s'.stats.fills + 1 } = _
      rw [h.stats]
      rfl
    events := by
      show s'.events.push (.staged n s'.ring.size) = s.events.push (.staged n s.ring.size)
      rw [h.events, h.ring.size] }

theorem drained (h : s.Same s') (wr : WaitingWriter ω) :
    (s.ring.drainWaiting wr s.sink).Alike (s'.ring.drainWaiting wr s'.sink) := by
  rw [h.sink]
  exact h.ring.drainWaiting wr s.sink

theorem filled (h : s.Same s') (hfills : rd.Fills) :
    (s.ring.fillWaiting rd s.source).Alike (s'.ring.fillWaiting rd s'.source) := by
  rw [h.source]
  exact h.ring.fillWaiting hfills s.source

end State.Same

/-! ## The pieces of a relay -/

theorem same_emptyInto (wr : WaitingWriter ω) (h : s.Same s') :
    (emptyInto wr s).Same (emptyInto wr s') := by
  fun_induction emptyInto wr s generalizing s' with
  | case1 s hsize error hresult =>
    have ht := h.drained wr
    rw [emptyInto_of_result (s := s') wr (h.ring.size ▸ hsize), ht.result, hresult]
    exact .ended (h.afterDrain ht) _
  | case2 s hsize hresult =>
    have ht := h.drained wr
    rw [emptyInto_of_result (s := s') wr (h.ring.size ▸ hsize), ht.result, hresult, h.ring.size]
    exact .ended (h.afterDrain ht) _
  | case3 s hsize n hresult ih =>
    have ht := h.drained wr
    rw [emptyInto_of_result (s := s') wr (h.ring.size ▸ hsize), ht.result, hresult]
    -- The induction goes on from the states behind this transfer, which are related again.
    exact ih ((h.afterDrain ht).countTaken (n + 1))
  | case4 s hsize =>
    rw [emptyInto, if_neg (h.ring.size ▸ hsize)]
    exact .running h

theorem same_flushSink (wr : WaitingWriter ω) (h : s.Same s') :
    (flushSink wr s).Same (flushSink wr s') := by
  unfold flushSink
  rw [h.sink]
  split
  · next later _ => exact .running (h.afterFlush (.ok ()) later)
  · next cause later _ => exact .ended (h.afterFlush (.error cause) later) _

theorem same_drainAll (wr : WaitingWriter ω) (options : RelayOptions) (h : s.Same s') :
    (drainAll wr options s).Same (drainAll wr options s') := by
  have hempty := same_emptyInto wr h
  unfold drainAll
  rw [h.ring.size]
  split
  · exact .running h
  · generalize emptyInto wr s = p, emptyInto wr s' = p' at hempty ⊢
    cases hempty with
    | ended hlater result => exact .ended hlater result
    | running hlater =>
      simp only
      split
      · exact same_flushSink wr hlater.countDrain
      · exact .running hlater.countDrain

theorem same_finish (wr : WaitingWriter ω) (h : s.Same s') : (finish wr s).Same (finish wr s') := by
  have hflush := same_flushSink wr h
  unfold finish
  generalize flushSink wr s = p, flushSink wr s' = p' at hflush ⊢
  cases hflush with
  | ended hlater result => exact .ended hlater result
  | @running s s' hlater =>
    simp only [hlater.stats]
    refine .ended ?_ _
    exact ⟨hlater.ring, hlater.source, hlater.sink, rfl, hlater.calls, by rw [hlater.events]⟩

theorem same_round (hfills : rd.Fills) (wr : WaitingWriter ω) (options : RelayOptions)
    (h : s.Same s') : (round rd wr options s).Same (round rd wr options s') := by
  have ht := h.filled hfills
  have hafter := h.afterFill ht
  unfold round
  rw [ht.result]
  split
  · exact .ended hafter _
  · exact same_finish wr hafter
  · next n _ => exact same_drainAll wr options (hafter.countFill (n + 1))

/-- Relays by the same endpoints through rings that hold the same stand in the same place after
    every number of rounds. -/
theorem same_rounds (hfills : rd.Fills) (wr : WaitingWriter ω) (options : RelayOptions)
    {ring ring' : Ring} (h : ring.Same ring') (source : ρ) (sink : ω) (n : Nat) :
    (rounds rd wr options ring source sink n).Same (rounds rd wr options ring' source sink n) := by
  induction n with
  | zero =>
    have hfirst : (initial ring source sink).Same (initial ring' source sink) := by
      refine ⟨h, rfl, rfl, ?_, rfl, rfl⟩
      simp only [initial, h.size]
    exact same_drainAll wr options hfirst
  | succ n ih =>
    unfold rounds
    generalize rounds rd wr options ring source sink n = p,
      rounds rd wr options ring' source sink n = p' at ih ⊢
    cases ih with
    | ended hlater result => exact .ended hlater result
    | running hlater => exact same_round hfills wr options hlater

end Relay

/-! ## What is seen -/

/-- All that is seen of an action, by its user and by its endpoints. -/
inductive Sight : Type 1
  | bulk (outcome : Outcome)
  | transfer {ε : Type} (outcome : Outcome) (events : List Event) (endpoint : ε)
  /-- A relay that has not ended has no result. -/
  | relay {ρ ω : Type} (result : Option (Except RelayError RelayStats)) (stats : RelayStats)
      (calls : Array Call) (events : Array Event) (source : ρ) (sink : ω)

def Transfer.sight {ε : Type} (t : Transfer ε) : Sight := .transfer t.outcome t.events t.endpoint

def Relay.Progress.sight {ρ ω : Type} : Relay.Progress ρ ω → Sight
  | .running s => .relay none s.stats s.calls s.events s.source s.sink
  | .ended s result => .relay (some result) s.stats s.calls s.events s.source s.sink

namespace Ring

def sight (ring : Ring) : Action → Sight
  | .operation (.fill rd source) => (ring.fill rd source).sight
  | .operation (.fillWaiting rd source) => (ring.fillWaiting rd source).sight
  | .operation (.drain wr sink) => (ring.drain wr sink).sight
  | .operation (.drainWaiting wr sink) => (ring.drainWaiting wr sink).sight
  | .operation op => .bulk (ring.perform op).1
  | .relay rd wr options source sink rounds =>
    (Relay.rounds rd wr options ring source sink rounds).sight

/-- What is seen of one action after another. -/
def sights (ring : Ring) : List Action → List Sight
  | [] => []
  | action :: actions => ring.sight action :: (ring.act action).2.sights actions

/-- A use of two rings that does not tell them apart: the same is seen of both, the same text is
    shown of both behind it, and both hold the same then. -/
structure Indistinct (ring ring' : Ring) (actions : List Action) : Prop where
  sights : ring'.sights actions = ring.sights actions
  summary : (ring'.actAll actions).2.summary = (ring.actAll actions).2.summary
  same : (ring.actAll actions).2.Same (ring'.actAll actions).2

end Ring

/-- The reader of the action, if it has one, writes every byte that it reports. -/
def Action.Fills : Action → Prop
  | .operation (.fill rd _) => rd.Fills
  | .operation (.fillWaiting rd _) => rd.Fills
  | .relay rd _ _ _ _ _ => rd.Fills
  | _ => True

theorem Transfer.Alike.sight {ε : Type} {t t' : Transfer ε} (h : t.Alike t') :
    t'.sight = t.sight := by
  simp only [Transfer.sight, Transfer.outcome, h.result, h.calls, h.events, h.endpoint]

theorem Relay.Progress.Same.sight {ρ ω : Type} {p p' : Relay.Progress ρ ω} (h : p.Same p') :
    p'.sight = p.sight := by
  cases h with
  | running h => simp only [Progress.sight, h.stats, h.calls, h.events, h.source, h.sink]
  | ended h result => simp only [Progress.sight, h.stats, h.calls, h.events, h.source, h.sink]

theorem Relay.Progress.Same.ring {ρ ω : Type} {p p' : Relay.Progress ρ ω} (h : p.Same p') :
    p.state.ring.Same p'.state.ring := by
  cases h with
  | running h => exact h.ring
  | ended h result => exact h.ring

namespace Ring

variable {ring ring' : Ring}

theorem Same.write (h : ring.Same ring') (bytes : List UInt8) :
    (ring'.perform (.write bytes)).1 = (ring.perform (.write bytes)).1 ∧
      (ring.perform (.write bytes)).2.Same (ring'.perform (.write bytes)).2 := by
  by_cases hle : bytes.length ≤ ring.remaining
  · obtain ⟨later, hw⟩ : ∃ later, ring.write bytes = .ok later := by simp [Ring.write, hle]
    obtain ⟨later', hw'⟩ : ∃ later', ring'.write bytes = .ok later' := by
      simp [Ring.write, h.remaining, hle]
    simp only [perform, hw, hw']
    exact ⟨trivial, h.of_write hw hw'⟩
  · have hw : ring.write bytes = .error (.bufferFull bytes.length ring.remaining) := by
      simp [Ring.write, hle]
    have hw' : ring'.write bytes = .error (.bufferFull bytes.length ring.remaining) := by
      simp [Ring.write, h.remaining, hle]
    simp only [perform, hw, hw']
    exact ⟨trivial, h⟩

theorem Same.read (h : ring.Same ring') (len : Nat) :
    (ring'.perform (.read len)).1 = (ring.perform (.read len)).1 ∧
      (ring.perform (.read len)).2.Same (ring'.perform (.read len)).2 := by
  by_cases hle : len ≤ ring.size
  · have hle' : len ≤ ring'.size := h.size ▸ hle
    simp only [perform, Ring.read, dif_pos hle, dif_pos hle', h.oldest hle]
    exact ⟨trivial, h.consume hle hle'⟩
  · have hle' : ¬len ≤ ring'.size := h.size ▸ hle
    simp only [perform, Ring.read, dif_neg hle, h.size]
    exact ⟨trivial, h⟩

theorem Same.peek (h : ring.Same ring') (len : Nat) :
    (ring'.perform (.peek len)).1 = (ring.perform (.peek len)).1 ∧
      (ring.perform (.peek len)).2.Same (ring'.perform (.peek len)).2 := by
  by_cases hle : len ≤ ring.size
  · simp only [perform, Ring.peek, h.size, if_pos hle, h.oldest hle]
    exact ⟨trivial, h⟩
  · simp only [perform, Ring.peek, h.size, if_neg hle]
    exact ⟨trivial, h⟩

/-- One action shows the same of two rings that hold the same, and leaves them so. -/
theorem Same.act (h : ring.Same ring') {action : Action} (hfills : action.Fills) :
    ring'.sight action = ring.sight action ∧ (ring.act action).2.Same (ring'.act action).2 := by
  cases action with
  | relay rd wr options source sink n =>
    have hrounds := Relay.same_rounds hfills wr options h source sink n
    exact ⟨hrounds.sight, hrounds.ring⟩
  | operation op =>
    cases op with
    | write bytes => exact (h.write bytes).imp_left (congrArg Sight.bulk)
    | read len => exact (h.read len).imp_left (congrArg Sight.bulk)
    | peek len => exact (h.peek len).imp_left (congrArg Sight.bulk)
    | empty => exact ⟨rfl, .empty h.capacity.symm⟩
    | fill rd source =>
      have ht := h.fill hfills source
      exact ⟨ht.sight, ht.ring⟩
    | fillWaiting rd source =>
      have ht := h.fillWaiting hfills source
      exact ⟨ht.sight, ht.ring⟩
    | drain wr sink =>
      have ht := h.drain wr sink
      exact ⟨ht.sight, ht.ring⟩
    | drainWaiting wr sink =>
      have ht := h.drainWaiting wr sink
      exact ⟨ht.sight, ht.ring⟩

/-- Every use of two rings that hold the same. -/
theorem Same.indistinct (h : ring.Same ring') {actions : List Action}
    (hfills : ∀ action ∈ actions, action.Fills) : ring.Indistinct ring' actions := by
  induction actions generalizing ring ring' with
  | nil => exact ⟨rfl, h.summary, h⟩
  | cons action actions ih =>
    obtain ⟨hfirst, hrest⟩ := List.forall_mem_cons.mp hfills
    obtain ⟨hsight, hnext⟩ := h.act hfirst
    have hlater := ih hnext hrest
    refine ⟨?_, hlater.summary, hlater.same⟩
    rw [sights, sights, hsight, hlater.sights]

/-- A ring that has been made empty holds what a new one of as many cells holds. -/
theorem same_empty_of_create {memory : Nat} {new : Ring}
    (h : create memory ring.capacity = .ok new) : ring.empty.Same new where
  capacity := (of_create h).1
  position := (of_create h).2.1
  contents := by rw [contents_of_create h, contents_empty]

/-- Left-over bytes are not seen. Rings that hold the same cannot be told apart by any use whose
    readers write every byte that they report, and neither can a ring that has been made empty and a
    new one with as many cells. -/
theorem indistinct_of_same {actions : List Action} (hfills : ∀ action ∈ actions, action.Fills) :
    (∀ ring ring' : Ring, ring.Same ring' → ring.Indistinct ring' actions) ∧
      ∀ (memory : Nat) (ring new : Ring), create memory ring.capacity = .ok new →
        ring.empty.Indistinct new actions :=
  ⟨fun _ _ h => h.indistinct hfills, fun _ _ _ h => (same_empty_of_create h).indistinct hfills⟩

/-- A use of a ring with a fill that fails behind bytes that nobody reported, a relay that leaves
    bytes behind, and a look at all that is live at the end. -/
def leftOverUse : List Action :=
  [.operation (.peek 2), .operation (.read 1),
    .operation (.fill ReadScript.reader [.report 9]),
    .operation (.fillWaiting ReadScript.waitingReader [.notReady, .data [5, 6, 7]]),
    .operation (.drain WriteScript.writer ⟨[.accept 1], none, []⟩),
    .relay ReadScript.waitingReader WriteScript.waitingWriter {} [.data [8, 9]]
      ⟨[.accept 1, .report 9], none, []⟩ 2,
    .operation (.write [4]), .operation (.peek 3), .operation .empty]

theorem indistinct_of_same_leftOver :
    ∃ other new : Ring, aroundEnd.Same other ∧ aroundEnd.cells ≠ other.cells ∧
      create 8 3 = .ok new ∧ aroundEnd.Indistinct other leftOverUse ∧
        aroundEnd.empty.Indistinct new leftOverUse := by
  have hfills : ∀ action ∈ leftOverUse, action.Fills := by
    intro action h
    simp only [leftOverUse, List.mem_cons, List.not_mem_nil, or_false] at h
    rcases h with rfl | rfl | rfl | rfl | rfl | rfl | rfl | rfl | rfl
    all_goals first
      | trivial
      | exact ReadScript.fills_reader
      | exact ReadScript.fills_waitingReader
  obtain ⟨hsame, hempty⟩ := indistinct_of_same hfills
  let other : Ring := ⟨#[2, 3, 1], 2, 2, by decide, by decide, by decide⟩
  have hlive : aroundEnd.Same other := ⟨rfl, rfl, by decide⟩
  exact ⟨other, _, hlive, by decide, rfl, hsame aroundEnd other hlive, hempty 8 aroundEnd _ rfl⟩

end Ring

end RingRelay
