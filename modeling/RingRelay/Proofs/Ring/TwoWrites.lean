import RingRelay.Proofs.Ring.Placement
import RingRelay.Proofs.Ring.TwoReads
/- A drain is at most two writes, one for each piece of the live cells.

   The loop of a drain offers the row from `position` on and works it out anew after each answer.
   That row is the first piece of the live cells (`live_first`). Behind an answer in full
   (`behindFirst`) it is what is left of the live bytes, all of it, for then it begins at cell 0
   (`readable_behindFirst`). So, as with a fill, the loop is used up after two turns and `Writes` has
   one case for each number of writes. A drain stores nothing (`cells_drainFrom`), so the ring behind
   it is the one before it without the bytes that were taken (`TakesOut`). -/
namespace RingRelay

/-- Calls that bring nothing in and change no cell. What they take is the beginning of the live
    bytes, and the rest is left. -/
structure TakesOut (first : Ring) (calls : List Call) (last : Ring) : Prop
    extends Balanced first calls last where
  delivered_eq : delivered calls = []
  cells_eq : last.cells = first.cells

namespace TakesOut

variable {first middle last : Ring} {calls more : List Call}

theorem refl (ring : Ring) : TakesOut ring [] ring := ⟨.refl ring, rfl, rfl⟩

theorem trans (h : TakesOut first calls middle) (h' : TakesOut middle more last) :
    TakesOut first (calls ++ more) last where
  toBalanced := h.toBalanced.trans h'.toBalanced
  delivered_eq := by rw [delivered_append, h.delivered_eq, h'.delivered_eq, List.append_nil]
  cells_eq := h'.cells_eq.trans h.cells_eq

theorem append_eq (h : TakesOut first calls last) :
    acknowledged calls ++ last.contents = first.contents := by
  rw [h.conserves, h.delivered_eq, List.append_nil]

theorem acknowledged_eq (h : TakesOut first calls last) :
    acknowledged calls = first.contents.take (acknowledged calls).length := by
  rw [← h.append_eq, List.take_left]

theorem contents_eq (h : TakesOut first calls last) :
    last.contents = first.contents.drop (acknowledged calls).length := by
  rw [← h.append_eq, List.drop_left]

theorem size_eq (h : TakesOut first calls last) :
    last.size + (acknowledged calls).length = first.size := by
  have hlength := congrArg List.length h.append_eq
  rw [List.length_append, Ring.length_contents, Ring.length_contents] at hlength
  omega

/-- What is left when bytes were taken out is the ring without them. -/
theorem eq_consume (h : TakesOut first calls last) :
    ∃ hle, last = first.consume (acknowledged calls).length hle := by
  have hsize := h.size_eq
  refine ⟨by omega, Ring.eq_of h.cells_eq h.position ?_⟩
  show last.size = first.size - (acknowledged calls).length
  omega

end TakesOut

theorem Call.length_acknowledged {offered : List UInt8} {n : Nat} (h : n ≤ offered.length) :
    (Call.write offered (.ok n)).acknowledged.length = n := by
  rw [acknowledged, if_pos h, List.length_take, Nat.min_eq_left h]

namespace Ring

/-- The live cells, in the order in which they are drained. -/
def live (ring : Ring) : Region := .of ring.position ring.size ring.capacity

/-- The ring without the first piece of its live bytes. -/
def behindFirst (ring : Ring) : Ring := ring.consume ring.readableRun ring.readableRun_le_size

/-- The writes of a drain, the state of the writer behind them, and what the drain returns: none of
    an empty ring, one of the first live piece, and one more of the second piece if there is one and
    the first was taken in full. -/
inductive Writes {ω : Type} (wr : Writer ω) (ring : Ring) (sink : ω) :
    List Call → ω → Except RingError Nat → Prop
  | none (hempty : ring.size = 0) : Writes wr ring sink [] sink (.ok 0)
  | once {answer : WriteAnswer} {later : ω} {result : Except RingError Nat}
      (hsome : 0 < ring.size)
      (hwrite : wr.write sink (ring.contents.take ring.live.first.length) = (answer, later))
      (hlast : ¬(answer = .ok ring.live.first.length ∧ 0 < ring.live.second.length))
      (hresult : Returns .write 0 ring.live.first.length answer result) :
      Writes wr ring sink [.write (ring.contents.take ring.live.first.length) answer] later result
  | twice {answer answer' : WriteAnswer} {later later' : ω} {result : Except RingError Nat}
      (hsome : 0 < ring.size)
      (hwrite : wr.write sink (ring.contents.take ring.live.first.length) = (answer, later))
      (hfull : answer = .ok ring.live.first.length) (hwrap : 0 < ring.live.second.length)
      (hwrite' : wr.write later (ring.contents.drop ring.live.first.length) = (answer', later'))
      (hresult : Returns .write ring.live.first.length ring.live.second.length answer' result) :
      Writes wr ring sink
        [.write (ring.contents.take ring.live.first.length) answer,
          .write (ring.contents.drop ring.live.first.length) answer'] later' result

/-- What a drain of `ring` into a writer in state `sink` does. -/
structure DrainContract {ω : Type} (wr : Writer ω) (ring : Ring) (sink : ω) (t : Transfer ω) :
    Prop where
  pieces : ring.live.first.length + ring.live.second.length = ring.size
  writes : Writes wr ring sink t.calls t.endpoint t.result
  /-- The count that is returned or reported with a failure is that of the bytes taken over. -/
  counts : Counts .write (acknowledged t.calls).length t.result
  acknowledged_eq : acknowledged t.calls = ring.contents.take (acknowledged t.calls).length
  contents_eq : t.ring.contents = ring.contents.drop (acknowledged t.calls).length
  size_eq : t.ring.size + (acknowledged t.calls).length = ring.size
  position_eq : t.ring.position =
    (ring.position + (acknowledged t.calls).length) % ring.capacity
  cells_eq : t.ring.cells = ring.cells

/-! ## The row from `position` on and the live pieces -/

theorem length_live_first (ring : Ring) : ring.live.first.length = ring.readableRun := by
  simp only [live, Region.of, Span.length, Nat.add_sub_cancel_left, readableRun]

theorem length_live_second (ring : Ring) :
    ring.live.second.length = ring.size - ring.readableRun := by
  simp only [live, Region.of, Span.length, Nat.sub_zero, readableRun]

/-- The two live pieces are all that is live. -/
theorem live_eq_size (ring : Ring) :
    ring.live.first.length + ring.live.second.length = ring.size := by
  have hrun := ring.readableRun_le_size
  rw [length_live_first, length_live_second]
  omega

theorem length_live_first_pos {ring : Ring} (hsome : 0 < ring.size) :
    0 < ring.live.first.length := by
  rw [length_live_first]
  exact Nat.pos_of_ne_zero (mt (readableRun_eq_zero_iff ring).mp (Nat.ne_of_gt hsome))

theorem live_first (ring : Ring) :
    ring.contents.take ring.live.first.length = ring.readable := by
  rw [length_live_first, readable_eq_take]

theorem size_behindFirst (ring : Ring) : ring.behindFirst.size = ring.live.second.length :=
  (length_live_second ring).symm

theorem contents_behindFirst (ring : Ring) :
    ring.behindFirst.contents = ring.contents.drop ring.live.first.length := by
  rw [length_live_first]
  exact ring.contents_consume _ _

/-- Behind the first live piece, all that is left lies in one row. -/
theorem readableRun_behindFirst (ring : Ring) :
    ring.behindFirst.readableRun = ring.live.second.length := by
  have hposition := ring.position_lt_capacity
  have hsize := ring.size_le_capacity
  rw [length_live_second]
  show min (ring.size - ring.readableRun)
    (ring.capacity - (ring.position + ring.readableRun) % ring.capacity) = _
  by_cases hwrap : ring.capacity - ring.position < ring.size
  · -- The first piece ends with the array, so the second one begins at cell 0.
    have hrun : ring.readableRun = ring.capacity - ring.position := by
      unfold readableRun
      omega
    have hend : ring.position + ring.readableRun = ring.capacity := by omega
    rw [hend, Nat.mod_self]
    omega
  · have hrun : ring.readableRun = ring.size := by
      unfold readableRun
      omega
    rw [hrun, Nat.sub_self, Nat.zero_min]

theorem readable_behindFirst (ring : Ring) :
    ring.behindFirst.readable = ring.contents.drop ring.live.first.length := by
  rw [readable_eq_take, readableRun_behindFirst, ← size_behindFirst, ← length_contents,
    List.take_length, contents_behindFirst]

theorem live_second_behindFirst (ring : Ring) : ring.behindFirst.live.second.length = 0 := by
  rw [length_live_second, readableRun_behindFirst, size_behindFirst, Nat.sub_self]

/-! ## One answer -/

/-- An answer changes no cell. -/
theorem cells_absorbWrite (ring : Ring) (answer : WriteAnswer) (total : Nat) :
    (ring.absorbWrite answer total).ring.cells = ring.cells := by
  unfold absorbWrite
  split
  · rfl
  · split <;> rfl

/-- An answer in full moves the first piece out, and the drain goes on. -/
theorem absorbWrite_of_full (ring : Ring) (total : Nat) :
    (ring.absorbWrite (.ok ring.readableRun) total).step = .more ∧
      (ring.absorbWrite (.ok ring.readableRun) total).moved = ring.readableRun ∧
      (ring.absorbWrite (.ok ring.readableRun) total).ring = ring.behindFirst := by
  unfold absorbWrite
  simp only [Nat.le_refl, dite_true, Nat.lt_irrefl, if_false, behindFirst, and_self]

/-- A drain that is not answered in full is over, and returns what that answer says. -/
theorem drainFrom_of_not_full {ω : Type} {wr : Writer ω} {ring : Ring} {sink later : ω}
    {answer : WriteAnswer} (total : Nat) (hrun : 0 < ring.readableRun)
    (hwrite : wr.write sink ring.readable = (answer, later))
    (hnot : answer ≠ .ok ring.readableRun) :
    ∃ result, Returns .write total ring.readableRun answer result ∧
      drainFrom wr ring sink total = (ring.absorbWrite answer total).finish later result := by
  rw [drainFrom_of_write total hrun hwrite]
  cases answer with
  | error cause => exact ⟨_, .failed cause, rfl⟩
  | ok n =>
    by_cases hle : n ≤ ring.readableRun
    · have hlt : n < ring.readableRun := Nat.lt_of_le_of_ne hle fun heq => hnot (by rw [heq])
      have hstep : (ring.absorbWrite (.ok n) total).step = .done := by
        simp only [absorbWrite, hle, dite_true, hlt, if_true]
      have hmoved : (ring.absorbWrite (.ok n) total).moved = n := by
        simp only [absorbWrite, hle, dite_true]
      rw [hstep, hmoved]
      exact ⟨_, .counted hle, rfl⟩
    · have hstep : (ring.absorbWrite (.ok n) total).step =
          .failed (.endpoint .write total (.overReported n ring.readableRun)) := by
        simp only [absorbWrite, hle, dite_false]
      rw [hstep]
      exact ⟨_, .overReported (Nat.lt_of_not_le hle) rfl rfl, rfl⟩

/-- A drain that is answered in full goes on with what is behind. -/
theorem drainFrom_of_full_answer {ω : Type} {wr : Writer ω} {ring : Ring} {sink later : ω}
    (total : Nat) (hrun : 0 < ring.readableRun)
    (hwrite : wr.write sink ring.readable = (.ok ring.readableRun, later)) :
    drainFrom wr ring sink total =
      (drainFrom wr ring.behindFirst later (total + ring.readableRun)).after
        (ring.absorbWrite (.ok ring.readableRun) total) := by
  obtain ⟨hstep, hmoved, hring⟩ := ring.absorbWrite_of_full total
  rw [drainFrom_of_write total hrun hwrite, hstep, hmoved, hring]

/-! ## The drain -/

/-- A drain changes no cell. -/
theorem cells_drainFrom {ω : Type} (wr : Writer ω) (ring : Ring) (sink : ω) (total : Nat) :
    (drainFrom wr ring sink total).ring.cells = ring.cells := by
  fun_induction drainFrom wr ring sink total with
  | case1 ring sink total hrun reply a ha ih =>
    exact ih.trans (ring.cells_absorbWrite reply.1 total)
  | case2 ring sink total hrun reply a ha => exact ring.cells_absorbWrite reply.1 total
  | case3 ring sink total hrun reply a error ha => exact ring.cells_absorbWrite reply.1 total
  | case4 => rfl

/-- A drain with one live piece left makes one write, whatever the answer. -/
theorem drainFrom_of_last_piece {ω : Type} {wr : Writer ω} {ring : Ring} {sink later : ω}
    {answer : WriteAnswer} (total : Nat) (hrun : 0 < ring.readableRun)
    (hlast : ring.live.second.length = 0)
    (hwrite : wr.write sink ring.readable = (answer, later)) :
    (drainFrom wr ring sink total).calls = [.write ring.readable answer] ∧
      (drainFrom wr ring sink total).endpoint = later ∧
      Returns .write total ring.readableRun answer (drainFrom wr ring sink total).result := by
  rw [← call_absorbWrite ring answer total]
  by_cases hfull : answer = .ok ring.readableRun
  · subst hfull
    have hnone : ¬0 < ring.behindFirst.readableRun := by
      rw [readableRun_behindFirst, hlast]
      exact Nat.lt_irrefl 0
    rw [drainFrom_of_full_answer total hrun hwrite, drainFrom_of_empty later _ hnone]
    exact ⟨rfl, rfl, .counted (Nat.le_refl _)⟩
  · obtain ⟨result, hresult, heq⟩ := drainFrom_of_not_full total hrun hwrite hfull
    rw [heq]
    exact ⟨rfl, rfl, hresult⟩

/-- A drain makes the writes that there are for the live pieces, and no others. -/
theorem writes_drain {ω : Type} (wr : Writer ω) (ring : Ring) (sink : ω) :
    Writes wr ring sink (ring.drain wr sink).calls (ring.drain wr sink).endpoint
      (ring.drain wr sink).result := by
  by_cases hempty : ring.size = 0
  · have hrun : ¬0 < ring.readableRun := by
      rw [(readableRun_eq_zero_iff ring).mpr hempty]
      exact Nat.lt_irrefl 0
    rw [drain, drainFrom_of_empty sink 0 hrun]
    exact .none hempty
  have hsome : 0 < ring.size := Nat.pos_of_ne_zero hempty
  have hrun : 0 < ring.readableRun := by
    rw [Nat.pos_iff_ne_zero]
    exact mt (readableRun_eq_zero_iff ring).mp hempty
  have hfirst := ring.length_live_first
  rcases hwrite : wr.write sink ring.readable with ⟨answer, later⟩
  by_cases hwrap : 0 < ring.live.second.length
  · by_cases hanswer : answer = .ok ring.readableRun
    · -- What is behind the first write is a drain of the second piece alone.
      subst hanswer
      have hrun' := ring.readableRun_behindFirst
      have hreadable' := ring.readable_behindFirst
      rcases hwrite' : wr.write later (ring.contents.drop ring.live.first.length)
        with ⟨answer', later'⟩
      rw [drain, drainFrom_of_full_answer 0 hrun hwrite, Nat.zero_add]
      obtain ⟨hcalls, hendpoint, hresult⟩ := drainFrom_of_last_piece ring.readableRun
        (hrun'.symm ▸ hwrap) ring.live_second_behindFirst (hreadable'.symm ▸ hwrite')
      rw [Transfer.endpoint_after, Transfer.result_after, hendpoint]
      show Writes wr ring sink ((ring.absorbWrite _ 0).call :: _) _ _
      rw [hcalls, call_absorbWrite, hreadable', ← live_first]
      rw [← live_first] at hwrite
      rw [hrun', ← hfirst] at hresult
      rw [← hfirst] at hwrite ⊢
      exact .twice hsome hwrite rfl hwrap hwrite' hresult
    · obtain ⟨result, hresult, heq⟩ := drainFrom_of_not_full 0 hrun hwrite hanswer
      rw [← live_first] at hwrite
      rw [← hfirst] at hanswer hresult
      have honce := Writes.once hsome hwrite (fun h => hanswer h.1) hresult
      rw [live_first, ← call_absorbWrite ring answer 0] at honce
      rwa [drain, heq]
  · obtain ⟨hcalls, hendpoint, hresult⟩ := drainFrom_of_last_piece 0 hrun
      (Nat.eq_zero_of_not_pos hwrap) hwrite
    rw [← live_first] at hwrite
    rw [← hfirst] at hresult
    rw [drain, hcalls, hendpoint, ← live_first]
    exact .once hsome hwrite (fun h => hwrap h.2) hresult

theorem takesOut_drain {ω : Type} (wr : Writer ω) (ring : Ring) (sink : ω) :
    TakesOut ring (ring.drain wr sink).calls (ring.drain wr sink).ring where
  toBalanced := (moves_drainFrom wr ring sink 0).toBalanced
  delivered_eq := (served_drainFrom wr ring sink 0).flatMap_eq_nil Writer.Turn.delivered
  cells_eq := cells_drainFrom wr ring sink 0

theorem counts_drain {ω : Type} (wr : Writer ω) (ring : Ring) (sink : ω) :
    Counts .write (acknowledged (ring.drain wr sink).calls).length (ring.drain wr sink).result := by
  have hcounts := (moves_drainFrom wr ring sink 0).counts
  rwa [show delivered (drainFrom wr ring sink 0).calls = [] from
    (takesOut_drain wr ring sink).delivered_eq, List.length_nil, Nat.add_zero, Nat.zero_add]
    at hcounts

/-- A drain keeps its contract, however its writer answers. -/
theorem drain_contract {ω : Type} (wr : Writer ω) (ring : Ring) (sink : ω) :
    DrainContract wr ring sink (ring.drain wr sink) := by
  have htakes := takesOut_drain wr ring sink
  exact ⟨ring.live_eq_size, writes_drain wr ring sink, counts_drain wr ring sink,
    htakes.acknowledged_eq, htakes.contents_eq, htakes.size_eq, htakes.position, htakes.cells_eq⟩

end Ring

end RingRelay
