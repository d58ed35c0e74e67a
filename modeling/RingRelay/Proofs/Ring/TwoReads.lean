import RingRelay.Proofs.Endpoint.Settled
import RingRelay.Proofs.Ring.Flow
/- A fill is at most two reads, one for each piece of the free cells.

   The loop of a fill knows only the row behind the tail, which it works out anew after each answer.
   That row is the first piece of the free cells (`free_first`), and behind an answer in full it is
   the second one (`free_second_of_full`); behind two answers in full there is none. So the loop is
   used up after two turns, and what a fill does can be said without a loop (`reads_fill`): `Reads`
   has one case for each number of reads. No answer touches a live cell (`live_absorbRead`), whatever
   the reader leaves in its slice and whatever it reports. -/
namespace RingRelay

/-- What a transfer returns that ends with this answer of its endpoint, to a call for `room` bytes
    and after `total` bytes had been moved. -/
inductive Returns (direction : Direction) (total room : Nat) :
    Except IoError Nat → Except RingError Nat → Prop
  | counted {n : Nat} (h : n ≤ room) : Returns direction total room (.ok n) (.ok (total + n))
  | failed (cause : IoError) :
      Returns direction total room (.error cause) (.error (.endpoint direction total cause))
  | overReported {n : Nat} {cause : IoError} (h : room < n) (hcause : cause = .overReported n room)
      (hkind : cause.kind = .invalidData) :
      Returns direction total room (.ok n) (.error (.endpoint direction total cause))

namespace Ring

/-- The free cells, in the order in which they are filled. -/
def free (ring : Ring) : Region := .of ring.tail ring.remaining ring.capacity

/-- The bytes in a span of cells. -/
def bytesAt (ring : Ring) (span : Span) : List UInt8 := Cells.slice ring.cells span.start span.stop

/-- The reads of a fill, the state of the reader behind them, and what the fill returns: none of a
    full ring, one of the first free piece, and one more of the second piece if there is one and the
    first was answered in full. -/
inductive Reads {ρ : Type} (rd : Reader ρ) (ring : Ring) (source : ρ) :
    List Call → ρ → Except RingError Nat → Prop
  | none (hfull : ring.size = ring.capacity) : Reads rd ring source [] source (.ok 0)
  | once {answer : ReadAnswer} {later : ρ} {result : Except RingError Nat}
      (hroom : ring.size < ring.capacity)
      (hread : rd.read source ring.free.first.length = (answer, later))
      (hlast : ¬(answer.result = .ok ring.free.first.length ∧ 0 < ring.free.second.length))
      (hresult : Returns .read 0 ring.free.first.length answer.result result) :
      Reads rd ring source [answer.call (ring.bytesAt ring.free.first)] later result
  | twice {answer answer' : ReadAnswer} {later later' : ρ} {result : Except RingError Nat}
      (hroom : ring.size < ring.capacity)
      (hread : rd.read source ring.free.first.length = (answer, later))
      (hfull : answer.result = .ok ring.free.first.length) (hwrap : 0 < ring.free.second.length)
      (hread' : rd.read later ring.free.second.length = (answer', later'))
      (hresult : Returns .read ring.free.first.length ring.free.second.length answer'.result
        result) :
      Reads rd ring source
        [answer.call (ring.bytesAt ring.free.first), answer'.call (ring.bytesAt ring.free.second)]
        later' result

/-- What a fill of `ring` from a reader in state `source` does. -/
structure FillContract {ρ : Type} (rd : Reader ρ) (ring : Ring) (source : ρ) (t : Transfer ρ) :
    Prop where
  reads : Reads rd ring source t.calls t.endpoint t.result
  /-- The count that is returned or reported with a failure is that of the bytes delivered. -/
  counts : Counts .read (delivered t.calls).length t.result
  size_eq : t.ring.size = ring.size + (delivered t.calls).length
  contents_eq : t.ring.contents = ring.contents ++ delivered t.calls
  position_eq : t.ring.position = ring.position
  capacity_eq : t.ring.capacity = ring.capacity
  live_eq : ∀ i < ring.size, t.ring.cells[(ring.position + i) % ring.capacity]? =
    ring.cells[(ring.position + i) % ring.capacity]?

/-! ## The row behind the tail and the free pieces -/

theorem length_free_first (ring : Ring) : ring.free.first.length = ring.writableRun := by
  have := ring.position_lt_capacity
  have := ring.size_le_capacity
  simp only [free, Region.of, Span.length, Nat.add_sub_cancel_left, remaining, tail, writableRun]
  rw [mod_eq_of_lt_two_mul (by omega)]
  split <;> omega

theorem length_free_second (ring : Ring) :
    ring.free.second.length = ring.remaining - ring.writableRun := by
  have hfirst := ring.length_free_first
  simp only [free, Region.of, Span.length, Nat.add_sub_cancel_left] at hfirst
  simp only [free, Region.of, Span.length, hfirst, Nat.sub_zero]

/-- There is a second free piece only if the first one goes up to the end of the array. -/
theorem tail_add_writableRun_of_wraps {ring : Ring} (hwrap : 0 < ring.free.second.length) :
    ring.tail + ring.writableRun = ring.capacity := by
  have htail := ring.tail_lt
  rw [← length_free_first]
  simp only [free, Region.of, Span.length, Nat.add_sub_cancel_left] at hwrap ⊢
  omega

/-- The row behind the tail is the first free piece. -/
theorem free_first_eq (ring : Ring) :
    ring.free.first = ⟨ring.tail, ring.tail + ring.writableRun⟩ := by
  have hlength := ring.length_free_first
  simp only [free, Region.of, Span.length, Nat.add_sub_cancel_left] at hlength
  simp only [free, Region.of, hlength]

/-- A reader is given the first free piece as it is. -/
theorem free_first (ring : Ring) : ring.bytesAt ring.free.first = ring.writable := by
  rw [free_first_eq]
  rfl

/-! ## One answer -/

/-- An answer changes the cells as the reader left them, and no others. -/
theorem cells_absorbRead (ring : Ring) (answer : ReadAnswer) (total : Nat) :
    (ring.absorbRead answer total).ring.cells = (ring.scribble answer.stores).cells := by
  unfold absorbRead
  split
  · rfl
  · split <;> rfl

/-- An answer leaves the live cells alone. -/
theorem live_absorbRead (ring : Ring) (answer : ReadAnswer) (total : Nat) {i : Nat}
    (hi : i < ring.size) :
    (ring.absorbRead answer total).ring.cells[(ring.position + i) % ring.capacity]? =
      ring.cells[(ring.position + i) % ring.capacity]? := by
  rw [cells_absorbRead]
  exact ring.getElem?_scribble_of_live answer.stores hi

/-- Behind an answer in full, the row behind the tail is as long as the second free piece. -/
theorem writableRun_of_full {ring : Ring} {answer : ReadAnswer} {total : Nat}
    (h : (ring.absorbRead answer total).step = .more) :
    (ring.absorbRead answer total).ring.writableRun = ring.free.second.length := by
  have hsize := (absorbRead_of_more h).2
  have hposition := (contents_absorbRead ring answer total).2
  have hcapacity := (moves_absorbRead ring answer total).capacity
  have := ring.position_lt_capacity
  have := ring.size_le_capacity
  rw [length_free_second]
  unfold remaining writableRun at *
  rw [hsize, hposition, hcapacity]
  split at hsize <;> split <;> split <;> omega

/-- Behind an answer in full, the row behind the tail is the second free piece as it was before. -/
theorem free_second_of_full {ring : Ring} {answer : ReadAnswer} {total : Nat}
    (h : (ring.absorbRead answer total).step = .more) (hwrap : 0 < ring.free.second.length) :
    (ring.absorbRead answer total).ring.writable = ring.bytesAt ring.free.second := by
  -- The first row ended with the array, so the tail is back at the first cell.
  have htail : (ring.absorbRead answer total).ring.tail = 0 := by
    have hposition := (contents_absorbRead ring answer total).2
    have hcapacity := (moves_absorbRead ring answer total).capacity
    rw [tail, (absorbRead_of_more h).2, hposition, hcapacity, ← Nat.add_assoc, ← Nat.mod_add_mod]
    show (ring.tail + ring.writableRun) % ring.capacity = 0
    rw [tail_add_writableRun_of_wraps hwrap, Nat.mod_self]
  -- The second piece ends in front of the old tail, where the reader has not stored anything.
  have hbefore : 0 + ring.free.second.length ≤ ring.tail := by
    rw [Nat.zero_add]
    exact Region.second_stop_le ring.tail_lt (Nat.sub_le ring.capacity ring.size)
  have hsame := Cells.slice_patch_of_le ring.cells (answer.stores.take ring.writableRun) hbefore
    (Nat.le_of_lt ring.tail_lt)
  rw [writable, htail, writableRun_of_full h, cells_absorbRead]
  rw [Nat.zero_add] at hsame ⊢
  exact hsame

/-- A fill that is not answered in full is over, and returns what that answer says. -/
theorem fillFrom_of_not_full {ρ : Type} {rd : Reader ρ} {ring : Ring} {source later : ρ}
    {answer : ReadAnswer} (total : Nat) (hrun : 0 < ring.writableRun)
    (hread : rd.read source ring.writableRun = (answer, later))
    (hnot : answer.result ≠ .ok ring.writableRun) :
    ∃ result, Returns .read total ring.writableRun answer.result result ∧
      fillFrom rd ring source total = (ring.absorbRead answer total).finish later result := by
  rw [fillFrom_of_read total hrun hread]
  cases hresult : answer.result with
  | error cause =>
    have hstep : (ring.absorbRead answer total).step = .failed (.endpoint .read total cause) := by
      simp only [absorbRead, hresult]
    rw [hstep]
    exact ⟨_, .failed cause, rfl⟩
  | ok n =>
    by_cases hle : n ≤ ring.writableRun
    · have hlt : n < ring.writableRun :=
        Nat.lt_of_le_of_ne hle fun heq => hnot (by rw [hresult, heq])
      have hstep : (ring.absorbRead answer total).step = .done := by
        simp only [absorbRead, hresult, hle, dite_true, hlt, or_true, if_true]
      have hmoved : (ring.absorbRead answer total).moved = n := by
        simp only [absorbRead, hresult, hle, dite_true]
      rw [hstep, hmoved]
      exact ⟨_, .counted hle, rfl⟩
    · have hstep : (ring.absorbRead answer total).step =
          .failed (.endpoint .read total (.overReported n ring.writableRun)) := by
        simp only [absorbRead, hresult, hle, dite_false]
      rw [hstep]
      exact ⟨_, .overReported (Nat.lt_of_not_le hle) rfl rfl, rfl⟩

/-- A fill that is answered in full goes on with what is behind. -/
theorem fillFrom_of_full_answer {ρ : Type} {rd : Reader ρ} {ring : Ring} {source later : ρ}
    {answer : ReadAnswer} (total : Nat) (hrun : 0 < ring.writableRun)
    (hread : rd.read source ring.writableRun = (answer, later))
    (hfull : answer.result = .ok ring.writableRun) :
    fillFrom rd ring source total =
      (fillFrom rd (ring.absorbRead answer total).ring later (total + ring.writableRun)).after
        (ring.absorbRead answer total) := by
  have hstep : (ring.absorbRead answer total).step = .more := step_absorbRead_of_full hrun hfull
  rw [fillFrom_of_read total hrun hread, hstep, (moved_absorbRead_of_more hstep).1]

/-! ## The fill -/

/-- A fill leaves the live cells alone. -/
theorem live_fillFrom {ρ : Type} (rd : Reader ρ) (ring : Ring) (source : ρ) (total : Nat) {i : Nat}
    (hi : i < ring.size) :
    (fillFrom rd ring source total).ring.cells[(ring.position + i) % ring.capacity]? =
      ring.cells[(ring.position + i) % ring.capacity]? := by
  fun_induction fillFrom rd ring source total with
  | case1 ring source total hrun reply a ha ih =>
    have hposition := (contents_absorbRead ring reply.1 total).2
    have hcapacity := (moves_absorbRead ring reply.1 total).capacity
    have hsize := size_absorbRead ring reply.1 total
    have hrest := ih (by show i < (ring.absorbRead reply.1 total).ring.size; omega)
    rw [show a.ring.position = ring.position from hposition,
      show a.ring.capacity = ring.capacity from hcapacity] at hrest
    exact hrest.trans (live_absorbRead ring reply.1 total hi)
  | case2 ring source total hrun reply a ha => exact live_absorbRead ring reply.1 total hi
  | case3 ring source total hrun reply a error ha => exact live_absorbRead ring reply.1 total hi
  | case4 ring source total hrun => rfl

/-- A fill with one free piece left makes one read, whatever the answer. -/
theorem fillFrom_of_last_piece {ρ : Type} {rd : Reader ρ} {ring : Ring} {source later : ρ}
    {answer : ReadAnswer} (total : Nat) (hrun : 0 < ring.writableRun)
    (hlast : ring.free.second.length = 0)
    (hread : rd.read source ring.writableRun = (answer, later)) :
    (fillFrom rd ring source total).calls = [answer.call ring.writable] ∧
      (fillFrom rd ring source total).endpoint = later ∧
      Returns .read total ring.writableRun answer.result (fillFrom rd ring source total).result := by
  rw [← call_absorbRead ring answer total]
  by_cases hfull : answer.result = .ok ring.writableRun
  · have hnone : ¬0 < (ring.absorbRead answer total).ring.writableRun := by
      rw [writableRun_of_full (step_absorbRead_of_full hrun hfull), hlast]
      exact Nat.lt_irrefl 0
    rw [fillFrom_of_full_answer total hrun hread hfull, fillFrom_of_full later _ hnone, hfull]
    exact ⟨rfl, rfl, .counted (Nat.le_refl _)⟩
  · obtain ⟨result, hresult, heq⟩ := fillFrom_of_not_full total hrun hread hfull
    rw [heq]
    exact ⟨rfl, rfl, hresult⟩

/-- Behind an answer in full, what is left is one piece. -/
theorem free_second_eq_zero_of_full {ring : Ring} {answer : ReadAnswer} {total : Nat}
    (h : (ring.absorbRead answer total).step = .more) :
    (ring.absorbRead answer total).ring.free.second.length = 0 := by
  rw [length_free_second, writableRun_of_full h, length_free_second, remaining_absorbRead,
    (moved_absorbRead_of_more h).1, Nat.sub_self]

/-- A fill makes the reads that there are for the free pieces, and no others. -/
theorem reads_fill {ρ : Type} (rd : Reader ρ) (ring : Ring) (source : ρ) :
    Reads rd ring source (ring.fill rd source).calls (ring.fill rd source).endpoint
      (ring.fill rd source).result := by
  by_cases hfull : ring.size = ring.capacity
  · have hrun : ¬0 < ring.writableRun := by
      rw [(writableRun_eq_zero_iff ring).mpr hfull]
      exact Nat.lt_irrefl 0
    rw [fill, fillFrom_of_full source 0 hrun]
    exact .none hfull
  have hroom : ring.size < ring.capacity := Nat.lt_of_le_of_ne ring.size_le_capacity hfull
  have hrun : 0 < ring.writableRun := by
    rw [Nat.pos_iff_ne_zero]
    exact mt (writableRun_eq_zero_iff ring).mp hfull
  have hfirst := ring.length_free_first
  rcases hread : rd.read source ring.writableRun with ⟨answer, later⟩
  by_cases hwrap : 0 < ring.free.second.length
  · by_cases hanswer : answer.result = .ok ring.writableRun
    · -- What is behind the first read is a fill of the second piece alone.
      have hmore : (ring.absorbRead answer 0).step = .more := step_absorbRead_of_full hrun hanswer
      have hrun' := writableRun_of_full hmore
      rcases hread' : rd.read later ring.free.second.length with ⟨answer', later'⟩
      rw [fill, fillFrom_of_full_answer 0 hrun hread hanswer, Nat.zero_add]
      obtain ⟨hcalls, hendpoint, hresult⟩ := fillFrom_of_last_piece ring.writableRun
        (hrun' ▸ hwrap) (free_second_eq_zero_of_full hmore) (hrun'.symm ▸ hread')
      rw [Transfer.endpoint_after, Transfer.result_after, hendpoint]
      show Reads rd ring source ((ring.absorbRead answer 0).call :: _) _ _
      rw [hcalls, call_absorbRead, free_second_of_full hmore hwrap, ← free_first]
      rw [hrun', ← hfirst] at hresult
      rw [← hfirst] at hread hanswer ⊢
      exact .twice hroom hread hanswer hwrap hread' hresult
    · obtain ⟨result, hresult, heq⟩ := fillFrom_of_not_full 0 hrun hread hanswer
      rw [fill, heq]
      rw [← hfirst] at hread hanswer hresult
      have honce := Reads.once hroom hread (fun h => hanswer h.1) hresult
      rwa [free_first, ← call_absorbRead ring answer 0] at honce
  · obtain ⟨hcalls, hendpoint, hresult⟩ := fillFrom_of_last_piece 0 hrun
      (Nat.eq_zero_of_not_pos hwrap) hread
    rw [fill, hcalls, hendpoint, ← free_first]
    rw [← hfirst] at hread hresult
    exact .once hroom hread (fun h => hwrap h.2) hresult

/-- A fill keeps its contract, however its reader answers. -/
theorem fill_contract {ρ : Type} (rd : Reader ρ) (ring : Ring) (source : ρ) :
    FillContract rd ring source (ring.fill rd source) := by
  have hmoves := moves_fillFrom rd ring source 0
  have hnone : acknowledged (fillFrom rd ring source 0).calls = [] :=
    (served_fillFrom rd ring source 0).flatMap_eq_nil Reader.Turn.acknowledged
  have hcontents : (fillFrom rd ring source 0).ring.contents =
      ring.contents ++ delivered (fillFrom rd ring source 0).calls := by
    simpa [hnone] using hmoves.conserves
  have hposition := hmoves.position
  have hcounts := hmoves.counts
  rw [hnone, List.length_nil] at hposition hcounts
  refine ⟨reads_fill rd ring source, ?_, ?_, hcontents, ?_, hmoves.capacity, ?_⟩
  · rwa [Nat.add_zero, Nat.zero_add] at hcounts
  · have hlength := congrArg List.length hcontents
    rwa [List.length_append, length_contents, length_contents] at hlength
  · rwa [Nat.add_zero, Nat.mod_eq_of_lt ring.position_lt_capacity] at hposition
  · intro i hi
    exact live_fillFrom rd ring source 0 hi

end Ring

end RingRelay
