import RingRelay.Proofs.Relay.Accounting
import RingRelay.Proofs.Relay.Copying
/- How a relay with a ring of its own fills it, from a reader that gives as much as there is room for.

   Such a reader (`Serves`) answers the first read of a fill in full as long as there is more than a
   ring of input left. The ring then begins at cell 0 again when it has been drained, however the
   writer took the bytes, so each fill is one read of the whole ring (`State.Scheduled`). The last
   one that brings something may be short, and the ring then begins where it ended: the read behind
   it, which is at the end of the stream, has the rest of the array (`State.Complete`). So what is
   asked of the reader depends on the capacity and on the number of bytes only (`fillSchedule`). -/
namespace RingRelay

/-- A reader that, as long as `p` holds of it and of the bytes that are left, answers with as many of
    these as there is room for. -/
structure RawReader.Serves {ρ : Type} (rd : RawReader ρ) (p : ρ → List UInt8 → Prop) : Prop where
  waits : ∀ {source later bytes room}, p source bytes → rd.poll source room = (.pending, later) →
    p later bytes
  answers : ∀ {source later bytes room answer}, p source bytes →
    rd.poll source room = (.ready answer, later) →
      p later (bytes.drop room) ∧ answer.result = .ok (min room bytes.length) ∧
        ∀ slice : List UInt8, slice.length = room → answer.delivered slice = bytes.take room

/-- Such a reader yields its bytes, in pieces that are as long as they can be. -/
theorem RawReader.Serves.yields {ρ : Type} {rd : RawReader ρ} {p : ρ → List UInt8 → Prop}
    (h : rd.Serves p) : rd.Yields p where
  waits hp hpoll := h.waits hp hpoll
  answers {source later bytes room answer} hp hpoll := by
    obtain ⟨hlater, hresult, hbytes⟩ := h.answers hp hpoll
    refine ⟨min room bytes.length, hresult, Nat.min_le_left .., Nat.min_le_right .., ?_, ?_, ?_⟩
    · intro hroom hsome
      exact Nat.lt_min.mpr ⟨hroom, List.length_pos_iff.mpr hsome⟩
    · rwa [← List.drop_eq_drop_min]
    · intro slice hslice
      rw [hbytes slice hslice, ← List.take_eq_take_min]

/-! ## Fill by fill -/

/-- The sizes of the slices that a reader of `length` bytes is given by a relay through a new ring:
    the whole ring as often as it is filled, and then, at the end of the stream, what is left up to
    the end of the array. -/
def fillSchedule (capacity length : Nat) : List Nat :=
  List.replicate (length / capacity) capacity ++
    if capacity ∣ length then [capacity] else [capacity, capacity - length % capacity]

/-- The number of fills that bring something is that of the bytes divided by the capacity, rounded
    up. -/
theorem fills_eq_of_bounds {capacity length fills : Nat} (hle : length ≤ capacity * fills)
    (hlt : capacity * fills < length + capacity) :
    fills = (length + capacity - 1) / capacity := by
  symm
  rw [Nat.div_eq_iff (by omega), Nat.mul_comm]
  omega

theorem fillSchedule_of_bounds {capacity length fills : Nat} (hle : length ≤ capacity * fills)
    (hlt : capacity * fills < length + capacity) :
    List.replicate fills capacity ++ [capacity - length % capacity] =
      fillSchedule capacity length := by
  have hpos : 0 < capacity := by omega
  unfold fillSchedule
  split
  · next hdvd =>
    obtain ⟨whole, rfl⟩ := hdvd
    obtain rfl : fills = whole := by
      have hup := Nat.le_of_mul_le_mul_left hle hpos
      have hdown : capacity * fills < capacity * (whole + 1) := by rwa [Nat.mul_add_one]
      have := Nat.lt_of_mul_lt_mul_left hdown
      omega
    rw [Nat.mul_div_cancel_left _ hpos, Nat.mul_mod_right, Nat.sub_zero]
  · next hdvd =>
    -- There is a rest, which takes one fill more.
    have hrest : 0 < length % capacity := Nat.pos_of_ne_zero (mt Nat.dvd_of_mod_eq_zero hdvd)
    have hsum := Nat.div_add_mod length capacity
    have hmod := Nat.mod_lt length hpos
    obtain rfl : fills = length / capacity + 1 := by
      have hup : capacity * (length / capacity) < capacity * fills := by omega
      have hdown : capacity * fills < capacity * (length / capacity + 1 + 1) := by
        rw [Nat.mul_add_one, Nat.mul_add_one]
        omega
      have := Nat.lt_of_mul_lt_mul_left hup
      have := Nat.lt_of_mul_lt_mul_left hdown
      omega
    rw [List.replicate_succ', List.append_assoc, List.singleton_append]

namespace Relay

variable {ρ ω : Type} {rd : RawReader ρ} {wr : RawWriter ω} {options : RelayOptions}
  {p : ρ → List UInt8 → Prop} {first : Ring} {input : List UInt8}

/-- Each fill so far was one read of a whole ring, and has brought the next bytes of the input. -/
structure State.Scheduled (p : ρ → List UInt8 → Prop) (first : Ring) (input : List UInt8)
    (s : State ρ ω) : Prop where
  source : p s.source (input.drop (first.capacity * s.stats.fills))
  requests : s.calls.toList.filterMap Call.room? = List.replicate s.stats.fills first.capacity
  delivered_eq : delivered s.calls.toList = input.take (first.capacity * s.stats.fills)
  fills_lt : first.capacity * s.stats.fills < input.length + first.capacity

/-- All of the input has come, and one read more has found the end of it. -/
structure State.Complete (first : Ring) (input : List UInt8) (s : State ρ ω) : Prop where
  requests : s.calls.toList.filterMap Call.room? =
    List.replicate s.stats.fills first.capacity ++
      [first.capacity - input.length % first.capacity]
  delivered_eq : delivered s.calls.toList = input
  fills_ge : input.length ≤ first.capacity * s.stats.fills
  fills_lt : first.capacity * s.stats.fills < input.length + first.capacity

/-- What has come at a stage. A fill never goes on to a second read. -/
def Moment.OnSchedule (p : ρ → List UInt8 → Prop) (first : Ring) (input : List UInt8)
    (m : Moment ρ ω) : Prop :=
  match m.stage with
  | .filling total => total = 0 ∧ m.state.Scheduled p first input
  | .draining _ _ => m.state.Scheduled p first input
  | .flushing => m.state.Scheduled p first input
  | .finishing => m.state.Complete first input
  | .ended (.ok stats) => m.state.Complete first input ∧ stats = m.state.stats
  | .ended (.error _) => True

section Calls

variable {s s' : State ρ ω} {total : Nat} {a : Absorbed} {source : ρ} {sink : ω} {call : Call}

/-- A call of the writer changes nothing of it. -/
theorem State.Scheduled.concat (h : s.Scheduled p first input) (hsource : s'.source = s.source)
    (hfills : s'.stats.fills = s.stats.fills) (hcalls : s'.calls.toList = s.calls.toList ++ [call])
    (hroom : call.room? = none) (hdelivered : call.delivered = []) :
    s'.Scheduled p first input where
  source := by
    rw [hsource, hfills]
    exact h.source
  requests := by
    rw [hcalls, hfills, List.filterMap_append, h.requests]
    simp [hroom]
  delivered_eq := by
    rw [hcalls, hfills, ← h.delivered_eq]
    simp [hdelivered]
  fills_lt := hfills ▸ h.fills_lt

theorem State.Complete.concat (h : s.Complete first input)
    (hfills : s'.stats.fills = s.stats.fills) (hcalls : s'.calls.toList = s.calls.toList ++ [call])
    (hroom : call.room? = none) (hdelivered : call.delivered = []) : s'.Complete first input where
  requests := by
    rw [hcalls, hfills, List.filterMap_append, h.requests]
    simp [hroom]
  delivered_eq := by
    rw [hcalls, ← h.delivered_eq]
    simp [hdelivered]
  fills_ge := hfills ▸ h.fills_ge
  fills_lt := hfills ▸ h.fills_lt

theorem State.Writes.room (h : s.Writes wr total a sink) : a.call.room? = none := by
  cases h
  rw [Ring.call_absorbWrite]
  rfl

/-- The answer of a reader that gives as much as there is room for. -/
theorem State.Reads.serves (h : s.Reads rd total a source) (hrd : rd.Serves p)
    {bytes : List UInt8} (hs : p s.source bytes) :
    p source (bytes.drop s.ring.writableRun) ∧ a.call.room? = some s.ring.writableRun ∧
      a.call.delivered = bytes.take s.ring.writableRun ∧
      a.moved = min s.ring.writableRun bytes.length := by
  have hmoved := h.length_delivered
  cases h with
  | @mk answer _ h =>
    obtain ⟨hlater, _, hbytes⟩ := hrd.answers hs h
    have hdelivered : (s.ring.absorbRead answer total).call.delivered =
        bytes.take s.ring.writableRun := by
      rw [Ring.call_absorbRead]
      exact hbytes _ (Ring.length_writable _)
    rw [hdelivered, List.length_take] at hmoved
    exact ⟨hlater, Ring.room_absorbRead .., hdelivered, hmoved.symm⟩

/-- The row that a fill begins with is the whole ring while there is input left, and else what is
    behind the last byte of it. -/
theorem State.Scheduled.writableRun_eq (h : s.Scheduled p first input)
    (hbalanced : Balanced first s.calls.toList s.ring) (hposition : first.position = 0)
    (hnone : first.contents = []) (hempty : s.ring.size = 0) :
    s.ring.writableRun =
      if first.capacity * s.stats.fills < input.length then first.capacity
      else first.capacity - input.length % first.capacity := by
  have hconserves := hbalanced.conserves
  rw [(Ring.contents_eq_nil_iff _).mpr hempty, hnone, List.append_nil, List.nil_append,
    h.delivered_eq] at hconserves
  rw [Ring.writableRun_of_size_eq_zero hempty, hbalanced.position, hbalanced.capacity, hposition,
    hconserves, List.length_take, Nat.zero_add]
  split
  · next hmore => rw [Nat.min_eq_left (Nat.le_of_lt hmore), Nat.mul_mod_right, Nat.sub_zero]
  · next hdone => rw [Nat.min_eq_right (Nat.le_of_not_lt hdone)]

/-- A fill that has brought something was one read of the whole ring. -/
theorem State.Scheduled.fills (h : s.Scheduled p first input) (hreads : s.Reads rd 0 a source)
    (hrd : rd.Serves p) (hbalanced : Balanced first s.calls.toList s.ring)
    (hposition : first.position = 0) (hnone : first.contents = []) (hempty : s.ring.size = 0)
    (hsome : 0 < a.moved) :
    s.ring.writableRun = first.capacity ∧
      ((s.afterRead a source).countFill a.moved).Scheduled p first input := by
  obtain ⟨hsource, hroom, hdelivered, hmoved⟩ := hreads.serves hrd h.source
  have hrun := h.writableRun_eq hbalanced hposition hnone hempty
  rw [List.length_drop] at hmoved
  have hmore : first.capacity * s.stats.fills < input.length := by omega
  rw [if_pos hmore] at hrun
  rw [hrun] at hsource hroom hdelivered
  refine ⟨hrun, ?_, ?_, ?_, ?_⟩
  · show p source (input.drop (first.capacity * (s.stats.fills + 1)))
    rwa [Nat.mul_add_one, ← List.drop_drop]
  · show (s.afterRead a source).calls.toList.filterMap Call.room? = _
    rw [State.calls_afterRead, List.filterMap_append, h.requests]
    simp only [List.filterMap_cons, hroom, List.filterMap_nil]
    exact List.replicate_succ'.symm
  · show delivered (s.afterRead a source).calls.toList = _
    rw [State.calls_afterRead, delivered_append, h.delivered_eq]
    show _ ++ (a.call.delivered ++ []) = input.take (first.capacity * (s.stats.fills + 1))
    rw [List.append_nil, hdelivered, Nat.mul_add_one, List.take_add]
  · show first.capacity * (s.stats.fills + 1) < input.length + first.capacity
    rw [Nat.mul_add_one]
    omega

/-- A fill that has brought nothing was one read at the end of the input. -/
theorem State.Scheduled.endsStream (h : s.Scheduled p first input)
    (hreads : s.Reads rd 0 a source) (hrd : rd.Serves p)
    (hbalanced : Balanced first s.calls.toList s.ring) (hposition : first.position = 0)
    (hnone : first.contents = []) (hempty : s.ring.size = 0) (hnothing : a.moved = 0) :
    (s.afterRead a source).Complete first input := by
  obtain ⟨hsource, hroom, hdelivered, hmoved⟩ := hreads.serves hrd h.source
  have hrun := h.writableRun_eq hbalanced hposition hnone hempty
  have hpos : 0 < s.ring.writableRun := by
    have := s.ring.position_lt_capacity
    rw [Ring.writableRun_of_size_eq_zero hempty]
    omega
  rw [List.length_drop] at hmoved
  have hge : input.length ≤ first.capacity * s.stats.fills := by omega
  rw [if_neg (Nat.not_lt.mpr hge)] at hrun
  refine ⟨?_, ?_, hge, h.fills_lt⟩
  · show (s.afterRead a source).calls.toList.filterMap Call.room? = _
    rw [State.calls_afterRead, List.filterMap_append, h.requests]
    simp only [List.filterMap_cons, hroom, List.filterMap_nil, hrun]
    rfl
  · show delivered (s.afterRead a source).calls.toList = _
    rw [State.calls_afterRead, delivered_append, h.delivered_eq, List.take_of_length_le hge]
    show input ++ (a.call.delivered ++ []) = input
    rw [hdelivered, List.drop_of_length_le hge, List.take_nil, List.append_nil, List.append_nil]

end Calls

/-- Every poll keeps to the schedule. -/
theorem Advances.onSchedule {m m' : Moment ρ ω} (h : Advances rd wr options m m')
    (hrd : rd.Serves p) (hposition : first.position = 0) (hnone : first.contents = [])
    (hsized : m.Sized) (hbalanced : Balanced first m.state.calls.toList m.state.ring)
    (hm : m.OnSchedule p first input) : m'.OnSchedule p first input := by
  cases h with
  | readerWaits h =>
    obtain ⟨rfl, hs⟩ := hm
    exact ⟨rfl, hrd.waits hs.source h, hs.requests, hs.delivered_eq, hs.fills_lt⟩
  | @readsOn s total a later h hmore hroom =>
    -- A read that is answered in full has filled the ring.
    obtain ⟨rfl, hs⟩ := hm
    obtain ⟨hcall, hsome⟩ := h.call_of_more hmore
    have hrun := (hs.fills h hrd hbalanced hposition hnone hsized.1 hsome).1
    have hfull := (h.serves hrd hs.source).2.1
    rw [hcall] at hfull
    have hmoved : a.moved = s.ring.writableRun := Option.some.inj hfull
    have hsize : a.ring.size = a.ring.capacity := by
      have hempty : s.ring.size = 0 := hsized.1
      rw [h.size, h.capacity, hbalanced.capacity, hempty, hmoved, hrun, Nat.zero_add]
    have := (Ring.writableRun_eq_zero_iff a.ring).mpr hsize
    omega
  | @fills s total a later h hstep hsome =>
    obtain ⟨rfl, hs⟩ := hm
    rw [Nat.zero_add] at hsome ⊢
    exact (hs.fills h hrd hbalanced hposition hnone hsized.1 hsome).2
  | endsStream h hdone hnothing =>
    exact hm.2.endsStream h hrd hbalanced hposition hnone hsized.1 hnothing
  | readFails => trivial
  | writerWaits => exact ⟨hm.source, hm.requests, hm.delivered_eq, hm.fills_lt⟩
  | @writesOn s pending total a later h =>
    exact hm.concat rfl rfl (s.calls_afterWrite a later) h.room h.delivered
  | @drainsAgain s pending total a later h =>
    exact hm.concat rfl rfl (s.calls_afterWrite a later) h.room h.delivered
  | @empties s pending total a later h =>
    have hs : (((s.afterWrite a later).countTaken (total + a.moved)).countDrain).Scheduled
        p first input := hm.concat rfl rfl (s.calls_afterWrite a later) h.room h.delivered
    unfold Stage.behindDrain
    split
    · exact hs
    · exact ⟨rfl, hs⟩
  | stalls => trivial
  | writeFails => trivial
  | flushWaits hstage =>
    rcases hstage with rfl | rfl
    · exact ⟨hm.source, hm.requests, hm.delivered_eq, hm.fills_lt⟩
    · exact ⟨hm.requests, hm.delivered_eq, hm.fills_ge, hm.fills_lt⟩
  | @flushes s later => exact ⟨rfl, hm.concat rfl rfl (s.calls_afterFlush (.ok ()) later) rfl rfl⟩
  | @finishes s later => exact ⟨hm.concat rfl (s.calls_afterFlush (.ok ()) later) rfl rfl, rfl⟩
  | flushFails => trivial
  | stays => exact hm

theorem onSchedule_moments (hrd : rd.Serves p) (wr : RawWriter ω) (options : RelayOptions)
    {ring : Ring} (hposition : ring.position = 0) (hempty : ring.size = 0) {source : ρ} (sink : ω)
    (hsource : p source input) (n : Nat) :
    (moments rd wr options ring source sink n).OnSchedule p ring input := by
  have hnone := (Ring.contents_eq_nil_iff ring).mpr hempty
  refine moments_induction ?_
    (fun hsized hsound hm h => h.onSchedule hrd hposition hnone hsized hsound.balanced hm) n
  have hfirst : enterDrain (initial ring source sink) = ⟨initial ring source sink, .filling 0⟩ :=
    (if_pos hempty).trans (enterFill_of_empty hempty)
  rw [hfirst]
  exact ⟨rfl, hsource, rfl, rfl, Nat.lt_add_left _ ring.capacity_pos⟩

/-! ## The whole relay -/

/-- How a relay through a new ring has gone, from a reader that gives as much as there is room for. -/
structure PumpContract (capacity : Nat) (input : List UInt8)
    (result : Except RelayError RelayStats) (calls : List Call) : Prop where
  result_eq : result = .ok
    { bytesIn := input.length
      bytesOut := input.length
      fills := (input.length + capacity - 1) / capacity
      drains := (input.length + capacity - 1) / capacity }
  output_eq : acknowledged calls = input
  requests_eq : calls.filterMap Call.room? = fillSchedule capacity input.length

theorem Returned.pumpContract (r : Returned) {p : r.ρ → List UInt8 → Prop} {q : r.ω → Prop}
    {memory capacity : Nat} {input : List UInt8} (hring : Ring.create memory capacity = .ok r.ring)
    (hrd : r.rd.raw.Serves p) (hwr : r.wr.raw.Obliges q) (hsource : p r.source input)
    (hsink : q r.sink) : PumpContract capacity input r.result r.calls := by
  obtain ⟨hcapacity, hposition, hempty⟩ := Ring.of_create hring
  have hnone := (Ring.contents_eq_nil_iff r.ring).mpr hempty
  obtain ⟨stats, hok⟩ := r.exists_ok hrd.yields.obliges hwr ⟨input, hsource⟩ hsink
  obtain ⟨n, hn⟩ := r.exists_moments
  rw [hok] at hn
  have haccounted := accounted_moments r.rd.raw r.wr.raw r.options r.ring r.source r.sink hn
  have hschedule :=
    onSchedule_moments hrd r.wr.raw r.options hposition hempty r.sink hsource n
  rw [hn] at hschedule
  obtain ⟨hcomplete, hstats⟩ := hschedule
  have hstats : stats = r.state.stats := hstats
  have hrequests : r.calls.filterMap Call.room? = _ := hcomplete.requests
  have hdelivered : delivered r.calls = input := hcomplete.delivered_eq
  have hge := hcomplete.fills_ge
  have hlt := hcomplete.fills_lt
  simp only [hcapacity, ← hstats] at hrequests hge hlt
  have hfills := fills_eq_of_bounds hge hlt
  have hin : stats.bytesIn = input.length := by
    rw [haccounted.bytesIn_eq, hnone, List.length_nil, Nat.zero_add]
    exact congrArg List.length hdelivered
  have hdrains : stats.drains = stats.fills := by rw [haccounted.drains_eq, if_pos hnone]; rfl
  have hconserves := r.balanced.conserves
  rw [r.contents_of_ok hok, hnone, List.append_nil, List.nil_append] at hconserves
  refine ⟨?_, hconserves.trans hdelivered, ?_⟩
  · rw [hok, ← hfills, ← hin]
    show Except.ok (RelayStats.mk stats.bytesIn stats.bytesOut stats.fills stats.drains) = _
    rw [haccounted.bytesOut_eq, hdrains]
  · rw [hrequests, fillSchedule_of_bounds hge hlt]

/-- Pumping from a reader that gives as much as there is room for, to a writer that takes something
    of all that it is offered, ends well: everything comes over, with as many fills and drains as
    there are rings of input, and the reader is asked for the whole ring each time, and in the end for
    what the last fill has left of the array. -/
theorem pump_of_serves {rd : WaitingReader ρ} {wr : WaitingWriter ω} {q : ω → Prop}
    {memory capacity : Nat} {ring : Ring} {source : ρ} {sink : ω}
    (hring : Ring.create memory capacity = .ok ring) (hrd : rd.raw.Serves p)
    (hwr : wr.raw.Obliges q) (hsource : p source input) (hsink : q sink)
    (options : RelayOptions) :
    (∃ n s result, rounds rd wr options ring source sink n = .ended s result ∧
        PumpContract capacity input result s.calls.toList) ∧
      ∀ ends : rd.Ends,
        PumpContract capacity input (pump ends wr options memory capacity source sink).result
          (pump ends wr options memory capacity source sink).calls.toList := by
  constructor
  · obtain ⟨n, s, result, hended⟩ :=
      exists_rounds_eq_ended wr options ring sink (hrd.yields.runsDry hsource).givesOut
    refine ⟨n, s, result, hended, ?_⟩
    exact Returned.pumpContract ⟨rd, wr, options, ring, source, sink, s, result, n, hended⟩
      hring hrd hwr hsource hsink
  · intro ends
    simp only [pump, hring]
    exact (Returned.ofRun ends wr options ring source sink).pumpContract hring hrd hwr hsource hsink

end Relay

/-! ## Scripts -/

/-- A script of one data step serves its bytes, whatever pauses there are before it. -/
theorem ReadScript.serves : waitingReader.raw.Serves
    fun script bytes => ∃ pauses, script = List.replicate pauses .notReady ++ putBack bytes where
  waits := by
    rintro _ later bytes room ⟨pauses, rfl⟩ hpoll
    cases pauses with
    | zero =>
      revert hpoll
      unfold putBack
      split <;> exact nofun
    | succ pauses => exact ⟨pauses, (Prod.mk.inj hpoll).2.symm⟩
  answers := by
    rintro _ later bytes room answer ⟨pauses, rfl⟩ hpoll
    cases pauses with
    | zero =>
      cases bytes with
      | nil =>
        cases hpoll
        refine ⟨⟨0, by simp [putBack]⟩, by simp [atEnd], ?_⟩
        intro slice _
        simp [ReadAnswer.delivered, atEnd]
      | cons byte bytes =>
        cases hpoll
        refine ⟨⟨0, by simp⟩, by simp [delivery], ?_⟩
        intro slice hslice
        have hfits : ((byte :: bytes).take room).length ≤ slice.length := by
          rw [List.length_take, hslice]
          exact Nat.min_le_left ..
        simp only [ReadAnswer.delivered, delivery, if_pos hfits]
        exact Cells.overlay_map_some slice _ hfits
    | succ pauses => cases hpoll

/-- A script that takes something in every step that is no pause. -/
structure WriteScript.Takes (script : WriteScript) : Prop where
  steps : ∀ step ∈ script.steps, step = .notReady ∨ ∃ n, step = .accept (n + 1)
  atMost : script.atMost ≠ some 0
  flushes : script.flushes = []

theorem WriteScript.Takes.tail {step : WriteStep} {rest : List WriteStep} {atMost : Option Nat}
    {flushes : List (Option IoError)} (h : Takes ⟨step :: rest, atMost, flushes⟩) :
    Takes ⟨rest, atMost, flushes⟩ :=
  ⟨fun next hnext => h.steps next (List.mem_cons_of_mem _ hnext), h.atMost, h.flushes⟩

theorem WriteScript.taken_pos {limit : Option Nat} {offered : List UInt8} (hlimit : limit ≠ some 0)
    (hoffered : offered ≠ []) : 0 < taken limit offered := by
  have hsome := List.length_pos_iff.mpr hoffered
  cases limit with
  | none => exact hsome
  | some limit =>
    have hpos : 0 < limit := Nat.pos_of_ne_zero fun hzero => hlimit (congrArg some hzero)
    exact Nat.lt_min.mpr ⟨hpos, hsome⟩

theorem WriteScript.taken_le (limit : Option Nat) (offered : List UInt8) :
    taken limit offered ≤ offered.length := by
  cases limit with
  | none => exact Nat.le_refl _
  | some limit => exact Nat.min_le_right ..

theorem WriteScript.obliges : waitingWriter.raw.Obliges Takes where
  waits := by
    rintro ⟨steps, atMost, flushes⟩ later offered htakes hpoll
    cases steps with
    | nil => cases hpoll
    | cons step rest =>
      cases step <;> cases hpoll
      exact htakes.tail
  answers := by
    rintro ⟨steps, atMost, flushes⟩ later offered answer htakes hpoll
    cases steps with
    | nil =>
      cases hpoll
      exact ⟨htakes, _, rfl, taken_le .., taken_pos htakes.atMost⟩
    | cons step rest =>
      rcases htakes.steps step List.mem_cons_self with rfl | ⟨n, rfl⟩
      · cases hpoll
      · cases hpoll
        exact ⟨htakes.tail, _, rfl, taken_le .., taken_pos nofun⟩
  flushWaits := by
    rintro script later - hflush
    cases hflush
  flushes := by
    rintro ⟨steps, atMost, flushes⟩ later answer htakes hflush
    obtain rfl : flushes = [] := htakes.flushes
    cases hflush
    exact ⟨htakes, rfl⟩

/-- Seven bytes through three cells, to a writer that takes one byte, makes a pause and then takes up
    to two at a time. -/
theorem Relay.pump_of_serves_sevenBytes :
    (pump ReadScript.ends WriteScript.waitingWriter {} 8 3 [.notReady, .data [1, 2, 3, 4, 5, 6, 7]]
        ⟨[.accept 1, .notReady], some 2, []⟩).result = .ok ⟨7, 7, 3, 3⟩ ∧
      (pump ReadScript.ends WriteScript.waitingWriter {} 8 3
          [.notReady, .data [1, 2, 3, 4, 5, 6, 7]]
          ⟨[.accept 1, .notReady], some 2, []⟩).calls.toList.filterMap Call.room? =
        [3, 3, 3, 2] := by
  have htakes : WriteScript.Takes ⟨[.accept 1, .notReady], some 2, []⟩ :=
    ⟨by simp, nofun, rfl⟩
  obtain ⟨hok, _, hrequests⟩ := (@pump_of_serves _ _ _ [1, 2, 3, 4, 5, 6, 7] _ _ _ 8 3 _ _ _ rfl
    ReadScript.serves WriteScript.obliges ⟨1, rfl⟩ htakes {}).2 ReadScript.ends
  exact ⟨hok, hrequests⟩

end RingRelay
