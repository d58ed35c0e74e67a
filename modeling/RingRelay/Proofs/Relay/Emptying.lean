import RingRelay.Proofs.Relay.Conservation
import RingRelay.Proofs.Ring.TwoWrites
/- Draining a ring to empty.

   `Relay.emptyInto` drains again and again. `Emptying` is that loop as the list of its turns, each
   one drain with the ring that it began with. What is said here of the loop is an induction over its
   turns, and `Ring.Writes` has what one turn does.

   A writer that is not ready is asked again and answers at last (`WaitingWriter.settled`), so a call
   here is a call with its answer. The loop makes at most one call more than there are bytes
   (`Emptying.length_calls_le`). Each call but one takes a byte at least, or the loop ends with it.
   The one is a second write that takes nothing: it comes behind a first write of all bytes up to the
   end of the array, and then no live byte is in front of that end any more, so there is no other
   second write (`Ring.callBound`). -/
namespace RingRelay

namespace Ring

/-- How many calls draining a ring to empty can take. -/
def callBound (ring : Ring) : Nat := ring.size + min 1 ring.live.second.length

theorem callBound_le (ring : Ring) : ring.callBound ≤ ring.size + 1 :=
  Nat.add_le_add_left (Nat.min_le_left _ _) _

/-- Bytes dropped from the first live piece leave the second one as it is; when the first one is
    gone, what is left lies in one row. -/
theorem length_live_second_consume (ring : Ring) {n : Nat} (h : n ≤ ring.size) :
    (ring.consume n h).live.second.length =
      if n < ring.live.first.length then ring.live.second.length else 0 := by
  have hposition := ring.position_lt_capacity
  have hsize := ring.size_le_capacity
  rw [length_live_second, length_live_second, length_live_first]
  show ring.size - n - min (ring.size - n) (ring.capacity - (ring.position + n) % ring.capacity) = _
  unfold readableRun
  rw [mod_eq_of_lt_two_mul (by omega)]
  split <;> split <;> omega

section Drain

variable {ω : Type} {wr : Writer ω} {ring : Ring} {sink later : ω} {calls : List Call}
  {result : Except RingError Nat}

/-- What comes of an answer that is a count that fits is the sum of both. -/
theorem result_of_returns {direction : Direction} {total room n : Nat}
    (h : Returns direction total room (.ok n) result) (hfits : n ≤ room) :
    result = .ok (total + n) := by
  cases h with
  | counted => rfl
  | overReported hlt => omega

theorem answer_of_returns {direction : Direction} {total room n : Nat} {answer : Except IoError Nat}
    (h : Returns direction total room answer (.ok n)) :
    ∃ m, answer = .ok m ∧ m ≤ room ∧ n = total + m := by
  cases h with
  | counted hfits => exact ⟨_, rfl, hfits, rfl⟩

/-- A drain makes one call, or two if there are two live pieces. -/
theorem Writes.length_le (h : Writes wr ring sink calls later result) : calls.length ≤ ring.size := by
  cases h with
  | none hempty => exact Nat.zero_le _
  | once hsome => exact hsome
  | twice hsome hwrite hfull hwrap =>
    have hfirst := length_live_first_pos hsome
    have hsum := ring.live_eq_size
    show 2 ≤ ring.size
    omega

/-- A drain moves nothing exactly if its first write takes nothing. -/
theorem Writes.result_eq_zero_iff (h : Writes wr ring sink calls later result)
    (hsome : 0 < ring.size) :
    result = .ok 0 ↔ ∃ offered rest, calls = .write offered (.ok 0) :: rest := by
  have hfirst := length_live_first_pos hsome
  cases h with
  | none hempty => omega
  | once hsome hwrite hlast hresult =>
    constructor
    · rintro rfl
      obtain ⟨m, rfl, _, hzero⟩ := answer_of_returns hresult
      obtain rfl : m = 0 := by omega
      exact ⟨_, _, rfl⟩
    · rintro ⟨offered, rest, heq⟩
      cases heq
      exact result_of_returns hresult (Nat.zero_le _)
  | twice hsome hwrite hfull hwrap hwrite' hresult =>
    constructor
    · rintro rfl
      obtain ⟨m, _, _, hzero⟩ := answer_of_returns hresult
      omega
    · rintro ⟨offered, rest, heq⟩
      cases heq
      have hzero := Except.ok.inj hfull
      omega

/-- A drain whose second write takes nothing has moved the first live piece, and the second one is
    what it had offered again. -/
theorem Writes.of_second_zero {first : Call} {offered : List UInt8}
    (h : Writes wr ring sink [first, .write offered (.ok 0)] later result) :
    result = .ok ring.live.first.length ∧ offered = ring.contents.drop ring.live.first.length ∧
      0 < ring.live.second.length := by
  cases h with
  | twice hsome hwrite hfull hwrap hwrite' hresult =>
    exact ⟨result_of_returns hresult (Nat.zero_le _), rfl, hwrap⟩

/-- The first write of a drain offers the first live piece. -/
theorem Writes.exists_cons (h : Writes wr ring sink calls later result) (hsome : 0 < ring.size) :
    ∃ answer rest, calls = .write (ring.contents.take ring.live.first.length) answer :: rest := by
  cases h with
  | none hempty => omega
  | once => exact ⟨_, _, rfl⟩
  | twice => exact ⟨_, _, rfl⟩

theorem Writes.forall_write (h : Writes wr ring sink calls later result) :
    ∀ call ∈ calls, ∃ offered answer, call = .write offered answer := by
  cases h with
  | none => simp
  | once => simp
  | twice => simp

/-- A drain that moved something leaves fewer calls to be made, by as many as it has made. -/
theorem length_calls_add_le {n : Nat} (hresult : (ring.drain wr sink).result = .ok n)
    (hn : 0 < n) :
    (ring.drain wr sink).calls.length + (ring.drain wr sink).ring.callBound ≤ ring.callBound := by
  have hwrites := writes_drain wr ring sink
  have hcounts := counts_drain wr ring sink
  obtain ⟨hle, hring⟩ := (takesOut_drain wr ring sink).eq_consume
  rw [hresult] at hwrites hcounts
  have hmoved : (acknowledged (ring.drain wr sink).calls).length = n := hcounts.symm
  rw [hring]
  unfold callBound
  rw [length_live_second_consume, size_consume, hmoved]
  rw [hmoved] at hle
  generalize (ring.drain wr sink).calls = calls, (ring.drain wr sink).endpoint = later at hwrites ⊢
  cases hwrites with
  | none hempty => omega
  | once hsome =>
    show 1 + _ ≤ _
    split <;> omega
  | twice hsome hwrite hfull hwrap hwrite' hreturns =>
    -- The whole first piece is gone, and the one more call with it.
    obtain ⟨m, _, _, rfl⟩ := answer_of_returns hreturns
    rw [if_neg (by omega)]
    show 2 + _ ≤ _
    omega

/-- Behind a drain whose second write took nothing, the ring holds what that write had offered, and
    offers all of it in one piece. -/
theorem offered_of_second_zero {first : Call} {offered : List UInt8}
    (hcalls : (ring.drain wr sink).calls = [first, .write offered (.ok 0)]) :
    (ring.drain wr sink).result = .ok ring.live.first.length ∧
      0 < (ring.drain wr sink).ring.size ∧
      (ring.drain wr sink).ring.contents.take (ring.drain wr sink).ring.live.first.length =
        offered := by
  have hwrites := writes_drain wr ring sink
  have hcounts := counts_drain wr ring sink
  have htakes := takesOut_drain wr ring sink
  rw [hcalls] at hwrites
  obtain ⟨hresult, rfl, hwrap⟩ := hwrites.of_second_zero
  rw [hresult] at hcounts
  have hmoved : (acknowledged (ring.drain wr sink).calls).length = ring.live.first.length :=
    hcounts.symm
  have hcontents := htakes.contents_eq
  have hsize := htakes.size_eq
  have hsum := ring.live_eq_size
  rw [hmoved] at hcontents hsize
  refine ⟨hresult, by omega, ?_⟩
  obtain ⟨hle, hring⟩ := htakes.eq_consume
  have hrow : (ring.drain wr sink).ring.live.second.length = 0 := by
    rw [hring, length_live_second_consume, hmoved, if_neg (Nat.lt_irrefl _)]
  have hall := (ring.drain wr sink).ring.live_eq_size
  rw [hrow, Nat.add_zero, ← length_contents] at hall
  rw [hall, List.take_length, hcontents]

/-- A drain that failed has left something in the ring. -/
theorem size_drain_pos_of_error {error : RingError}
    (hresult : (ring.drain wr sink).result = .error error) : 0 < (ring.drain wr sink).ring.size := by
  have hwrites := writes_drain wr ring sink
  have hcounts := counts_drain wr ring sink
  have hsize := (takesOut_drain wr ring sink).size_eq
  rw [hresult] at hwrites hcounts
  obtain ⟨cause, rfl⟩ := hcounts
  generalize (acknowledged (ring.drain wr sink).calls).length = moved at hsize hwrites
  have hsum := ring.live_eq_size
  -- It had moved nothing, or the first piece and nothing of the second one.
  generalize (ring.drain wr sink).calls = calls, (ring.drain wr sink).endpoint = later at hwrites
  cases hwrites with
  | once hsome hwrite hlast hreturns => cases hreturns <;> omega
  | twice hsome hwrite hfull hwrap hwrite' hreturns => cases hreturns <;> omega

end Drain

end Ring

namespace Relay

/-! ## The turns of the loop -/

/-- One turn of the loop that drains a ring to empty: the ring that it began with, and its drain. -/
structure EmptyingTurn (ω : Type) where
  ring : Ring
  transfer : Transfer ω

namespace EmptyingTurn

variable {ω : Type}

/-- The first write of the turn took nothing. -/
def Stalls (turn : EmptyingTurn ω) : Prop :=
  ∃ offered rest, turn.transfer.calls = .write offered (.ok 0) :: rest

/-- The first write of the turn offered these bytes. -/
def Offers (turn : EmptyingTurn ω) (offered : List UInt8) : Prop :=
  ∃ answer rest, turn.transfer.calls = .write offered answer :: rest

end EmptyingTurn

/-- All writes of some turns, in order. -/
def writeCalls {ω : Type} (turns : List (EmptyingTurn ω)) : List Call :=
  turns.flatMap fun turn => turn.transfer.calls

@[simp] theorem writeCalls_cons {ω : Type} (turn : EmptyingTurn ω) (turns : List (EmptyingTurn ω)) :
    writeCalls (turn :: turns) = turn.transfer.calls ++ writeCalls turns := rfl

@[simp] theorem writeCalls_singleton {ω : Type} (turn : EmptyingTurn ω) :
    writeCalls [turn] = turn.transfer.calls := by
  simp [writeCalls]

/-- A ring and a writer, the turns by which the ring is drained to empty or the writer fails or
    stalls, the ring and the writer behind them, and what came of it. -/
inductive Emptying {ω : Type} (wr : Writer ω) :
    Ring → ω → List (EmptyingTurn ω) → Ring → ω → Except RelayError Unit → Prop
  | empty {ring : Ring} {sink : ω} (hempty : ring.size = 0) :
      Emptying wr ring sink [] ring sink (.ok ())
  | again {ring last : Ring} {sink later : ω} {n : Nat} {turns : List (EmptyingTurn ω)}
      {result : Except RelayError Unit} (hsome : 0 < ring.size)
      (hresult : (ring.drain wr sink).result = .ok (n + 1))
      (rest : Emptying wr (ring.drain wr sink).ring (ring.drain wr sink).endpoint turns last later
        result) :
      Emptying wr ring sink (⟨ring, ring.drain wr sink⟩ :: turns) last later result
  | stalls {ring : Ring} {sink : ω} (hsome : 0 < ring.size)
      (hresult : (ring.drain wr sink).result = .ok 0) :
      Emptying wr ring sink [⟨ring, ring.drain wr sink⟩] (ring.drain wr sink).ring
        (ring.drain wr sink).endpoint (.error (.stalledWriter ring.size))
  | fails {ring : Ring} {sink : ω} {error : RingError} (hsome : 0 < ring.size)
      (hresult : (ring.drain wr sink).result = .error error) :
      Emptying wr ring sink [⟨ring, ring.drain wr sink⟩] (ring.drain wr sink).ring
        (ring.drain wr sink).endpoint (.error (.ring error))

namespace Emptying

variable {ω : Type} {wr : Writer ω} {ring last : Ring} {sink later : ω}
  {turns : List (EmptyingTurn ω)} {result : Except RelayError Unit}

theorem takesOut (h : Emptying wr ring sink turns last later result) :
    TakesOut ring (writeCalls turns) last := by
  induction h with
  | empty => exact .refl _
  | again _ _ _ ih => exact (Ring.takesOut_drain wr _ _).trans ih
  | @stalls ring sink =>
    rw [writeCalls_singleton]
    exact ring.takesOut_drain wr sink
  | @fails ring sink =>
    rw [writeCalls_singleton]
    exact ring.takesOut_drain wr sink

theorem length_calls_le (h : Emptying wr ring sink turns last later result) :
    (writeCalls turns).length ≤ ring.callBound := by
  -- A drain that is the last one has no more calls than there are bytes.
  have hlast : ∀ (ring : Ring) (sink : ω), (ring.drain wr sink).calls.length ≤ ring.callBound :=
    fun ring sink => Nat.le_trans (ring.writes_drain wr sink).length_le (Nat.le_add_right _ _)
  induction h with
  | empty => exact Nat.zero_le _
  | again _ hresult _ ih =>
    have hfirst := Ring.length_calls_add_le hresult (Nat.succ_pos _)
    rw [writeCalls_cons, List.length_append]
    exact Nat.le_trans (Nat.add_le_add_left ih _) hfirst
  | @stalls ring sink =>
    rw [writeCalls_singleton]
    exact hlast ring sink
  | @fails ring sink =>
    rw [writeCalls_singleton]
    exact hlast ring sink

theorem forall_write (h : Emptying wr ring sink turns last later result) :
    ∀ call ∈ writeCalls turns, ∃ offered answer, call = .write offered answer := by
  induction h with
  | empty => simp [writeCalls]
  | @again ring _ sink _ _ _ _ _ _ _ ih =>
    rw [writeCalls_cons, List.forall_mem_append]
    exact ⟨(ring.writes_drain wr sink).forall_write, ih⟩
  | @stalls ring sink =>
    rw [writeCalls_singleton]
    exact (ring.writes_drain wr sink).forall_write
  | @fails ring sink =>
    rw [writeCalls_singleton]
    exact (ring.writes_drain wr sink).forall_write

/-- There are turns for a ring that is not empty, and the first is a drain of it. -/
theorem exists_cons (h : Emptying wr ring sink turns last later result) (hsome : 0 < ring.size) :
    ∃ rest, turns = ⟨ring, ring.drain wr sink⟩ :: rest := by
  cases h with
  | empty hempty => omega
  | again => exact ⟨_, rfl⟩
  | stalls => exact ⟨_, rfl⟩
  | fails => exact ⟨_, rfl⟩

theorem turns_eq_nil (h : Emptying wr ring sink turns last later result) (hempty : ring.size = 0) :
    turns = [] := by
  cases h with
  | empty => rfl
  | again hsome => omega
  | stalls hsome => omega
  | fails hsome => omega

/-- The ring is empty exactly if it all went well. -/
theorem result_eq_ok_iff (h : Emptying wr ring sink turns last later result) :
    result = .ok () ↔ last.size = 0 := by
  induction h with
  | empty hempty => exact iff_of_true rfl hempty
  | again _ _ _ ih => exact ih
  | @stalls ring sink hsome hresult =>
    have hcounts := ring.counts_drain wr sink
    have hsize := (ring.takesOut_drain wr sink).size_eq
    rw [hresult] at hcounts
    have hnone : 0 = (acknowledged (ring.drain wr sink).calls).length := hcounts
    exact iff_of_false nofun (by omega)
  | fails hsome hresult =>
    exact iff_of_false nofun (Nat.ne_of_gt (Ring.size_drain_pos_of_error hresult))

theorem result_eq_ok_iff_acknowledged (h : Emptying wr ring sink turns last later result) :
    result = .ok () ↔ acknowledged (writeCalls turns) = ring.contents := by
  have hall := h.takesOut.append_eq
  rw [h.result_eq_ok_iff, ← Ring.contents_eq_nil_iff, ← hall, List.self_eq_append_right]

/-- A turn stalls exactly if it moves nothing. -/
theorem stalls_drain_iff {ring : Ring} {sink : ω} (hsome : 0 < ring.size) :
    (EmptyingTurn.mk ring (ring.drain wr sink)).Stalls ↔ (ring.drain wr sink).result = .ok 0 :=
  ((ring.writes_drain wr sink).result_eq_zero_iff hsome).symm

/-- The writer is reported as stalled exactly if the first write of some turn took nothing. -/
theorem stalledWriter_iff (h : Emptying wr ring sink turns last later result) :
    (∃ pending, result = .error (.stalledWriter pending)) ↔ ∃ turn ∈ turns, turn.Stalls := by
  induction h with
  | empty => simp
  | @again ring _ sink _ n turns _ hsome hresult _ ih =>
    have hnot : ¬(EmptyingTurn.mk ring (ring.drain wr sink)).Stalls := by
      rw [stalls_drain_iff hsome, hresult]
      simp
    simp only [ih, List.mem_cons, exists_eq_or_imp, hnot, false_or]
  | stalls hsome hresult =>
    refine iff_of_true ⟨_, rfl⟩ ⟨_, List.mem_singleton_self _, ?_⟩
    exact (stalls_drain_iff hsome).mpr hresult
  | fails hsome hresult =>
    refine iff_of_false (by simp) ?_
    rintro ⟨turn, hmem, hstalls⟩
    obtain rfl := List.mem_singleton.mp hmem
    rw [stalls_drain_iff hsome, hresult] at hstalls
    cases hstalls

/-- The turn with which a writer stalls is the last one. It has left the ring as it was, and what is
    reported is what was in it. -/
theorem exists_of_stalledWriter (h : Emptying wr ring sink turns last later result) {pending : Nat}
    (hresult : result = .error (.stalledWriter pending)) :
    ∃ before turn, turns = before ++ [turn] ∧ turn.Stalls ∧ turn.ring.size = pending ∧
      0 < pending ∧ turn.transfer.ring = turn.ring ∧ last = turn.ring := by
  induction h with
  | empty => cases hresult
  | again hsome hmoved _ ih =>
    obtain ⟨before, turn, rfl, hturn⟩ := ih hresult
    exact ⟨_ :: before, turn, rfl, hturn⟩
  | @stalls ring sink hsome hzero =>
    obtain rfl : ring.size = pending := by
      simpa using hresult
    -- Nothing was taken, so the ring is the one without its first no bytes.
    have hcounts := ring.counts_drain wr sink
    rw [hzero] at hcounts
    have hnone : (acknowledged (ring.drain wr sink).calls).length = 0 := hcounts.symm
    have hsame : (ring.drain wr sink).ring = ring := by
      obtain ⟨hle, hring⟩ := (ring.takesOut_drain wr sink).eq_consume
      rw [hring]
      simp only [hnone, Ring.consume_zero]
    exact ⟨[], _, rfl, (stalls_drain_iff hsome).mpr hzero, rfl, hsome, hsame, hsame⟩
  | fails => simp at hresult

/-- A second write that takes nothing is not the end of the loop: the next turn offers the same bytes
    again. -/
theorem exists_offers_again (h : Emptying wr ring sink turns last later result)
    {before after : List (EmptyingTurn ω)} {turn : EmptyingTurn ω} {first : Call}
    {offered : List UInt8} (hturns : turns = before ++ turn :: after)
    (hcalls : turn.transfer.calls = [first, .write offered (.ok 0)]) :
    ∃ next rest, after = next :: rest ∧ next.Offers offered := by
  induction h generalizing before with
  | empty => simp at hturns
  | @again ring _ sink _ n turns _ hsome hresult hrest ih =>
    cases before with
    | cons first before =>
      rw [List.cons_append, List.cons.injEq] at hturns
      exact ih hturns.2
    | nil =>
      rw [List.nil_append, List.cons.injEq] at hturns
      obtain ⟨rfl, rfl⟩ := hturns
      -- The ring offers again what the second write was offered.
      obtain ⟨_, hsize, hoffered⟩ := Ring.offered_of_second_zero hcalls
      obtain ⟨rest, rfl⟩ := hrest.exists_cons hsize
      refine ⟨_, rest, rfl, ?_⟩
      rw [← hoffered]
      exact (Ring.writes_drain wr _ _).exists_cons hsize
  | @stalls ring sink hsome hzero =>
    have hturn : turn ∈ [EmptyingTurn.mk ring (ring.drain wr sink)] := by simp [hturns]
    obtain rfl := List.mem_singleton.mp hturn
    have hfull := (Ring.offered_of_second_zero hcalls).1
    have hpos := Ring.length_live_first_pos hsome
    rw [hzero] at hfull
    have hnone := Except.ok.inj hfull
    omega
  | @fails ring sink error hsome herror =>
    have hturn : turn ∈ [EmptyingTurn.mk ring (ring.drain wr sink)] := by simp [hturns]
    obtain rfl := List.mem_singleton.mp hturn
    have hfull := (Ring.offered_of_second_zero hcalls).1
    rw [herror] at hfull
    cases hfull

end Emptying

/-! ## The loop and the flush behind it -/

/-- Where a relay stands behind a step that came to `result`. -/
def Progress.of {ρ ω : Type} (s : State ρ ω) : Except RelayError Unit → Progress ρ ω
  | .ok () => .running s
  | .error error => .ended s (.error error)

variable {ρ ω : Type}

theorem exists_emptying (wr : WaitingWriter ω) (s : State ρ ω) :
    ∃ turns s' result, emptyInto wr s = .of s' result ∧
      Emptying wr.settled s.ring s.sink turns s'.ring s'.sink result ∧
      s'.calls.toList = s.calls.toList ++ writeCalls turns := by
  fun_induction emptyInto wr s with
  | case1 s hsome error hresult =>
    rw [Ring.drainWaiting_eq_settled] at hresult ⊢
    refine ⟨_, _, .error (.ring error), rfl, .fails hsome hresult, ?_⟩
    rw [writeCalls_singleton]
    exact Array.toList_appendList
  | case2 s hsome hresult =>
    rw [Ring.drainWaiting_eq_settled] at hresult ⊢
    refine ⟨_, _, .error (.stalledWriter s.ring.size), rfl, .stalls hsome hresult, ?_⟩
    rw [writeCalls_singleton]
    exact Array.toList_appendList
  | case3 s hsome n hresult ih =>
    obtain ⟨turns, s', result, hloop, hrest, hcalls⟩ := ih
    rw [Ring.drainWaiting_eq_settled] at hresult hloop hrest hcalls ⊢
    refine ⟨_ :: turns, s', result, hloop, .again hsome hresult hrest, ?_⟩
    rw [hcalls, writeCalls_cons, ← List.append_assoc]
    exact congrArg (· ++ writeCalls turns) Array.toList_appendList
  | case4 s hempty =>
    refine ⟨[], s, .ok (), rfl, .empty (by omega), ?_⟩
    rw [writeCalls, List.flatMap_nil, List.append_nil]

/-- The flush behind a ring that was drained to empty, if one is wanted: the calls, what came of it
    all, and the writer behind it. -/
inductive Flushing (wr : Writer ω) (wanted : Prop) :
    ω → Except RelayError Unit → List Call → Except RelayError Unit → ω → Prop
  | none {sink : ω} {emptied : Except RelayError Unit} (h : emptied = .ok () → ¬wanted) :
      Flushing wr wanted sink emptied [] emptied sink
  | flushed {sink later : ω} (h : wanted) (hflush : wr.flush sink = (.ok (), later)) :
      Flushing wr wanted sink (.ok ()) [.flush (.ok ())] (.ok ()) later
  | failed {sink later : ω} {cause : IoError} (h : wanted)
      (hflush : wr.flush sink = (.error cause, later)) :
      Flushing wr wanted sink (.ok ()) [.flush (.error cause)] (.error (.flush cause)) later

theorem exists_drainAll (wr : WaitingWriter ω) (options : RelayOptions) (s : State ρ ω) :
    ∃ turns later emptied flushes s' result, drainAll wr options s = .of s' result ∧
      Emptying wr.settled s.ring s.sink turns s'.ring later emptied ∧
      Flushing wr.settled (options.flushOnDrain ∧ 0 < s.ring.size) later emptied flushes result
        s'.sink ∧
      s'.calls.toList = s.calls.toList ++ writeCalls turns ++ flushes := by
  unfold drainAll
  split
  · next hempty =>
    refine ⟨[], s.sink, .ok (), [], s, .ok (), rfl, .empty hempty, .none ?_, ?_⟩
    · rintro - ⟨_, hsome⟩
      omega
    · rw [writeCalls, List.flatMap_nil, List.append_nil, List.append_nil]
  · next hsome =>
    have hpos : 0 < s.ring.size := Nat.pos_of_ne_zero hsome
    obtain ⟨turns, s', emptied, hloop, hemptying, hcalls⟩ := exists_emptying wr s
    rw [hloop]
    cases emptied with
    | error error =>
      refine ⟨turns, s'.sink, .error error, [], s', .error error, rfl, hemptying, .none nofun, ?_⟩
      rw [hcalls, List.append_nil]
    | ok =>
      simp only [Progress.of]
      split
      · next hon =>
        unfold flushSink
        split
        · next later hflush =>
          refine ⟨turns, s'.sink, .ok (), [.flush (.ok ())], _, .ok (), rfl, hemptying,
            .flushed ⟨hon, hpos⟩ hflush, ?_⟩
          rw [← hcalls]
          exact Array.toList_push
        · next cause later hflush =>
          refine ⟨turns, s'.sink, .ok (), [.flush (.error cause)], _, .error (.flush cause), rfl,
            hemptying, .failed ⟨hon, hpos⟩ hflush, ?_⟩
          rw [← hcalls]
          exact Array.toList_push
      · next hoff =>
        refine ⟨turns, s'.sink, .ok (), [], _, .ok (), rfl, hemptying, .none ?_, ?_⟩
        · rintro - ⟨hon, _⟩
          exact hoff hon
        · rw [List.append_nil]
          exact hcalls

/-! ## What draining to empty does -/

/-- What it does to drain the ring `first` to empty: the turns and the flushes, the ring that is left
    and what comes of it. -/
structure EmptyingContract (wr : Writer ω) (options : RelayOptions) (first : Ring) (sink : ω)
    (turns : List (EmptyingTurn ω)) (flushes : List Call) (last : Ring) (later : ω)
    (result : Except RelayError Unit) : Prop where
  steps : ∃ middle emptied, Emptying wr first sink turns last middle emptied ∧
    Flushing wr (options.flushOnDrain ∧ 0 < first.size) middle emptied flushes result later
  writes : ∀ call ∈ writeCalls turns, ∃ offered answer, call = .write offered answer
  no_write : first.size = 0 → writeCalls turns = []
  length_le : (writeCalls turns).length ≤ first.size + 1
  stalled_iff : (∃ pending, result = .error (.stalledWriter pending)) ↔
    ∃ turn ∈ turns, turn.Stalls
  /-- The turn that stalls is the last one, and has left the ring as it was. -/
  stalled : ∀ {pending}, result = .error (.stalledWriter pending) →
    ∃ before turn, turns = before ++ [turn] ∧ turn.Stalls ∧ turn.ring.size = pending ∧
      0 < pending ∧ turn.transfer.ring = turn.ring ∧ last = turn.ring
  /-- A second write that takes nothing is no stall. -/
  offered_again : ∀ {before turn after first offered}, turns = before ++ turn :: after →
    turn.transfer.calls = [first, .write offered (.ok 0)] →
      ∃ next rest, after = next :: rest ∧ next.Offers offered
  flush_iff : (∃ answer, flushes = [.flush answer]) ↔
    acknowledged (writeCalls turns) = first.contents ∧ options.flushOnDrain ∧ 0 < first.size
  ok_iff : result = .ok () ↔ acknowledged (writeCalls turns) = first.contents ∧
    flushes = if options.flushOnDrain ∧ 0 < first.size then [.flush (.ok ())] else []

namespace Flushing

variable {wr : Writer ω} {wanted : Prop} {sink later : ω} {emptied result : Except RelayError Unit}
  {flushes : List Call}

/-- A flush is no stall, and there is none behind one. -/
theorem stalledWriter_iff (h : Flushing wr wanted sink emptied flushes result later)
    (pending : Nat) :
    result = .error (.stalledWriter pending) ↔ emptied = .error (.stalledWriter pending) := by
  cases h with
  | none => exact Iff.rfl
  | flushed => exact iff_of_false nofun nofun
  | failed => exact iff_of_false nofun nofun

theorem flush_iff (h : Flushing wr wanted sink emptied flushes result later) :
    (∃ answer, flushes = [.flush answer]) ↔ emptied = .ok () ∧ wanted := by
  cases h with
  | none h =>
    refine iff_of_false nofun ?_
    rintro ⟨hok, hwanted⟩
    exact h hok hwanted
  | flushed h => exact iff_of_true ⟨_, rfl⟩ ⟨rfl, h⟩
  | failed h => exact iff_of_true ⟨_, rfl⟩ ⟨rfl, h⟩

theorem ok_iff [Decidable wanted] (h : Flushing wr wanted sink emptied flushes result later) :
    result = .ok () ↔ emptied = .ok () ∧
      flushes = if wanted then [.flush (.ok ())] else [] := by
  cases h with
  | none h =>
    constructor
    · intro hok
      exact ⟨hok, (if_neg (h hok)).symm⟩
    · exact And.left
  | flushed h => exact iff_of_true rfl ⟨rfl, (if_pos h).symm⟩
  | failed h =>
    refine iff_of_false nofun ?_
    rintro ⟨_, heq⟩
    rw [if_pos h] at heq
    simp at heq

end Flushing

theorem Emptying.contract {wr : Writer ω} {options : RelayOptions} {first last : Ring}
    {sink middle later : ω} {turns : List (EmptyingTurn ω)} {flushes : List Call}
    {emptied result : Except RelayError Unit}
    (h : Emptying wr first sink turns last middle emptied)
    (hflush : Flushing wr (options.flushOnDrain ∧ 0 < first.size) middle emptied flushes result
      later) :
    EmptyingContract wr options first sink turns flushes last later result where
  steps := ⟨middle, emptied, h, hflush⟩
  writes := h.forall_write
  no_write hempty := by
    rw [h.turns_eq_nil hempty]
    rfl
  length_le := Nat.le_trans h.length_calls_le first.callBound_le
  stalled_iff := by
    simp only [hflush.stalledWriter_iff, h.stalledWriter_iff]
  stalled hresult := h.exists_of_stalledWriter ((hflush.stalledWriter_iff _).mp hresult)
  offered_again := h.exists_offers_again
  flush_iff := by rw [hflush.flush_iff, h.result_eq_ok_iff_acknowledged]
  ok_iff := by rw [hflush.ok_iff, h.result_eq_ok_iff_acknowledged]

/-- Draining to empty keeps its contract, however the writer answers. -/
theorem exists_emptyingContract (wr : WaitingWriter ω) (options : RelayOptions) (s : State ρ ω) :
    ∃ turns flushes s' result, drainAll wr options s = .of s' result ∧
      s'.calls.toList = s.calls.toList ++ writeCalls turns ++ flushes ∧
      EmptyingContract wr.settled options s.ring s.sink turns flushes s'.ring s'.sink result := by
  obtain ⟨turns, middle, emptied, flushes, s', result, hdrain, hemptying, hflushing, hcalls⟩ :=
    exists_drainAll wr options s
  exact ⟨turns, flushes, s', result, hdrain, hcalls, hemptying.contract hflushing⟩

end Relay

end RingRelay
