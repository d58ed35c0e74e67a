import RingRelay.Proofs.Relay.Advances
import RingRelay.Proofs.Relay.Emptying
/- Draining to empty with a writer that need not ever be ready.

   `drainAll` is for writers that answer at last. Poll by poll the bound on the calls is the same:
   each answer leaves one call less to be made, at least (`Advances.polled`). How many are left is
   known from the ring and from what the drain under way has moved (`Ring.callsLeft`). One that has
   moved something has one piece of the live cells left (`Moment.OnePiece`), and a second write that
   takes nothing is paid for.

   A writer can therefore answer only so often, and a drain that does not come to its end waits from
   some poll on for a writer that is never ready (`exists_waits_of_forall_draining`). -/
namespace RingRelay

namespace Ring

/-- How many calls can still be made until the ring is empty, in a drain that has moved `total`
    bytes. -/
def callsLeft (ring : Ring) : Nat → Nat
  | 0 => ring.callBound
  | _ + 1 => ring.size + 1

theorem callsLeft_pos {ring : Ring} (hsome : 0 < ring.size) (total : Nat) :
    0 < ring.callsLeft total := by
  cases total with
  | zero => exact Nat.lt_of_lt_of_le hsome (Nat.le_add_right _ _)
  | succ total => exact Nat.succ_pos _

theorem ring_absorbWrite_of_fits (ring : Ring) (total : Nat) {n : Nat} (h : n ≤ ring.readableRun) :
    (ring.absorbWrite (.ok n) total).ring =
      ring.consume n (Nat.le_trans h ring.readableRun_le_size) := by
  simp only [absorbWrite, h, dite_true]

end Ring

namespace Relay

variable {ρ ω : Type} {rd : RawReader ρ} {wr : RawWriter ω} {options : RelayOptions}

/-- Where a relay stands that has stood at `m`, some polls later. -/
def polls (rd : RawReader ρ) (wr : RawWriter ω) (options : RelayOptions) (m : Moment ρ ω) :
    Nat → Moment ρ ω
  | 0 => m
  | k + 1 => advance rd wr options (polls rd wr options m k)

/-- The relay is draining its ring. -/
def Moment.Draining (m : Moment ρ ω) : Prop := ∃ pending total, m.stage = .draining pending total

/-- The relay is draining its ring, and the writer is not ready. -/
def Moment.WriterWaits (wr : RawWriter ω) (m : Moment ρ ω) : Prop :=
  m.Draining ∧ ∃ later, wr.poll m.state.sink m.state.ring.readable = (.pending, later)

/-- How many calls of a drain can still be made. -/
def Moment.callsLeft (m : Moment ρ ω) : Nat :=
  match m.stage with
  | .draining _ total => m.state.ring.callsLeft total
  | _ => 0

/-- A drain that has moved something has one piece of the live cells left. -/
def Moment.OnePiece (m : Moment ρ ω) : Prop :=
  ∀ pending total, m.stage = .draining pending (total + 1) → m.state.ring.live.second.length = 0

namespace State.Writes

variable {s : State ρ ω} {total : Nat} {a : Absorbed} {sink : ω}

/-- The ring behind an answer that is no failure is the one before without the bytes taken. -/
theorem ring_eq_consume (h : s.Writes wr total a sink) (hok : ∀ error, a.step ≠ .failed error) :
    ∃ hle, a.ring = s.ring.consume a.moved hle := by
  cases h with
  | @mk answer _ h =>
    obtain ⟨hanswer, hfits, _⟩ := Ring.absorbWrite_of_ok hok
    refine ⟨Nat.le_trans hfits s.ring.readableRun_le_size, ?_⟩
    rw [← s.ring.ring_absorbWrite_of_fits total hfits, ← hanswer]

/-- A drain goes on when the first piece is gone, and one call less is left. -/
theorem callsLeft_of_more (h : s.Writes wr total a sink) (hmore : a.step = .more)
    (hrest : 0 < a.ring.size) (hone : 0 < total → s.ring.live.second.length = 0) :
    0 < a.moved ∧ a.ring.live.second.length = 0 ∧
      a.ring.size + 1 < s.ring.callsLeft total := by
  have hok : ∀ error, a.step ≠ .failed error := by simp [hmore]
  obtain ⟨hle, hring⟩ := h.ring_eq_consume hok
  have hmoved : a.moved = s.ring.live.first.length := by
    cases h
    rw [Ring.length_live_first]
    exact Ring.moved_absorbWrite_of_more hmore
  have hsize : a.ring.size = s.ring.size - a.moved := by
    rw [hring, Ring.size_consume]
  have hfirst : 0 < s.ring.live.first.length := Ring.length_live_first_pos (by omega)
  have hsum := s.ring.live_eq_size
  -- There are bytes in the second piece, so this is the first write of the drain.
  obtain rfl : total = 0 := by
    refine Nat.eq_zero_of_not_pos fun hpos => ?_
    have hnone := hone hpos
    omega
  refine ⟨by omega, ?_, ?_⟩
  · rw [hring, Ring.length_live_second_consume, if_neg (by omega)]
  · show a.ring.size + 1 < s.ring.callBound
    unfold Ring.callBound
    omega

/-- A drain of what a short write has left has one call less left. -/
theorem callsLeft_of_done (h : s.Writes wr total a sink) (hdone : a.step = .done)
    (hsome : 0 < total + a.moved) (hone : 0 < total → s.ring.live.second.length = 0) :
    a.ring.callBound < s.ring.callsLeft total := by
  have hok : ∀ error, a.step ≠ .failed error := by simp [hdone]
  obtain ⟨hle, hring⟩ := h.ring_eq_consume hok
  have hsecond : a.ring.live.second.length ≤ s.ring.live.second.length := by
    rw [hring, Ring.length_live_second_consume]
    split <;> omega
  have hsize : a.ring.size = s.ring.size - a.moved := by
    rw [hring, Ring.size_consume]
  unfold Ring.callBound
  cases total with
  | zero =>
    show _ < s.ring.callBound
    unfold Ring.callBound
    omega
  | succ total =>
    have hnone := hone (Nat.succ_pos total)
    show _ < s.ring.size + 1
    omega

end State.Writes

/-- What a poll of the writer of a drain comes to: the writer is not ready, or it has an answer and
    one call less is left. -/
def Polled (wr : RawWriter ω) (m m' : Moment ρ ω) : Prop :=
  m.WriterWaits wr ∧ m'.state.calls = m.state.calls ∧ m'.callsLeft = m.callsLeft ∨
    (∃ offered answer, m'.state.calls.toList = m.state.calls.toList ++ [.write offered answer]) ∧
      m'.callsLeft < m.callsLeft

theorem callsLeft_behindDrain (options : RelayOptions) (s : State ρ ω) :
    (Moment.mk s (.behindDrain options)).callsLeft = 0 := by
  unfold Stage.behindDrain
  split <;> rfl

theorem onePiece_behindDrain (options : RelayOptions) (s : State ρ ω) :
    (Moment.mk s (.behindDrain options)).OnePiece := by
  unfold Stage.behindDrain
  split <;> exact nofun

theorem Polled.of_writes {s s' : State ρ ω} {pending total : Nat} {stage : Stage} {a : Absorbed}
    {sink : ω} (h : s.Writes wr total a sink) (hcalls : s'.calls = (s.afterWrite a sink).calls)
    (hlt : (Moment.mk s' stage).callsLeft < s.ring.callsLeft total) :
    Polled wr ⟨s, .draining pending total⟩ ⟨s', stage⟩ := by
  refine .inr ⟨?_, hlt⟩
  show ∃ offered answer, s'.calls.toList = s.calls.toList ++ [.write offered answer]
  rw [hcalls, State.calls_afterWrite]
  cases h
  rw [Ring.call_absorbWrite]
  exact ⟨_, _, rfl⟩

/-- A poll of a drain is one of the two. -/
theorem Advances.polled {m m' : Moment ρ ω} (h : Advances rd wr options m m')
    (hdraining : m.Draining) (hsized : m.Sized) (hone : m.OnePiece) :
    m'.OnePiece ∧ Polled wr m m' := by
  obtain ⟨pending, total, hstage⟩ := hdraining
  have hpiece : 0 < total → m.state.ring.live.second.length = 0 := by
    intro hpos
    obtain ⟨before, rfl⟩ := Nat.exists_eq_add_of_lt hpos
    exact hone pending (0 + before) hstage
  have hpos : 0 < m.state.ring.callsLeft total := by
    unfold Moment.Sized at hsized
    rw [hstage] at hsized
    exact Ring.callsLeft_pos hsized.1 total
  cases h with
  | writerWaits h => exact ⟨hone, .inl ⟨⟨⟨_, _, rfl⟩, _, h⟩, rfl, rfl⟩⟩
  | writesOn h hmore hrest =>
    cases hstage
    obtain ⟨hmoved, hnone, hlt⟩ := h.callsLeft_of_more hmore hrest hpiece
    refine ⟨fun _ _ _ => hnone, .of_writes h rfl ?_⟩
    -- Behind this answer the drain has moved something.
    obtain ⟨before, heq⟩ :=
      Nat.exists_eq_add_of_lt (Nat.lt_of_lt_of_le hmoved (Nat.le_add_left _ total))
    show Ring.callsLeft _ _ < _
    rw [heq]
    exact hlt
  | drainsAgain h hdone hsome =>
    cases hstage
    exact ⟨nofun, .of_writes h rfl (h.callsLeft_of_done hdone hsome hpiece)⟩
  | empties h hmore hempty =>
    cases hstage
    refine ⟨onePiece_behindDrain options _, .of_writes h rfl ?_⟩
    rw [callsLeft_behindDrain]
    exact hpos
  | stalls h hdone hnone =>
    cases hstage
    exact ⟨nofun, .of_writes h rfl hpos⟩
  | writeFails h hfailed =>
    cases hstage
    exact ⟨nofun, .of_writes h rfl hpos⟩
  | flushWaits hflush =>
    cases hstage
    rcases hflush with hflush | hflush <;> cases hflush
  | flushFails hflush =>
    cases hstage
    rcases hflush with hflush | hflush <;> cases hflush
  | _ => cases hstage

/-! ## Any number of polls -/

section Polls

variable {s : State ρ ω}

theorem sized_polls (rd : RawReader ρ) (wr : RawWriter ω) (options : RelayOptions) (s : State ρ ω)
    (k : Nat) : (polls rd wr options (enterDrain s) k).Sized := by
  induction k with
  | zero => exact sized_enterDrain s
  | succ k ih => exact (advances_advance rd wr options ih).sized ih

theorem onePiece_polls {k : Nat}
    (h : ∀ j < k, (polls rd wr options (enterDrain s) j).Draining) :
    (polls rd wr options (enterDrain s) k).OnePiece := by
  induction k with
  | zero =>
    show (enterDrain s).OnePiece
    unfold enterDrain
    split
    · next hempty =>
      rw [enterFill_of_empty hempty]
      exact nofun
    · exact nofun
  | succ k ih =>
    have hone := ih fun j hj => h j (Nat.lt_succ_of_lt hj)
    have hsized := sized_polls rd wr options s k
    exact ((advances_advance rd wr options hsized).polled (h k (Nat.lt_succ_self k)) hsized hone).1

theorem polled_polls {k : Nat}
    (h : ∀ j < k + 1, (polls rd wr options (enterDrain s) j).Draining) :
    Polled wr (polls rd wr options (enterDrain s) k) (polls rd wr options (enterDrain s) (k + 1)) := by
  have hone := onePiece_polls fun j hj => h j (Nat.lt_succ_of_lt hj)
  have hsized := sized_polls rd wr options s k
  exact ((advances_advance rd wr options hsized).polled (h k (Nat.lt_succ_self k)) hsized hone).2

/-- As long as the ring is drained, the calls that were made and those that are left are no more than
    the bound. -/
theorem exists_calls_polls {k : Nat}
    (h : ∀ j < k, (polls rd wr options (enterDrain s) j).Draining) :
    ∃ calls, (polls rd wr options (enterDrain s) k).state.calls.toList = s.calls.toList ++ calls ∧
      (∀ call ∈ calls, ∃ offered answer, call = .write offered answer) ∧
      calls.length + (polls rd wr options (enterDrain s) k).callsLeft ≤ s.ring.callBound := by
  induction k with
  | zero =>
    show ∃ calls, (enterDrain s).state.calls.toList = s.calls.toList ++ calls ∧ _ ∧
      calls.length + (enterDrain s).callsLeft ≤ s.ring.callBound
    refine ⟨[], ?_⟩
    unfold enterDrain
    split
    · next hempty =>
      rw [enterFill_of_empty hempty, List.append_nil]
      exact ⟨rfl, nofun, Nat.zero_le _⟩
    · rw [List.append_nil]
      exact ⟨rfl, nofun, Nat.le_of_eq (Nat.zero_add _)⟩
  | succ k ih =>
    obtain ⟨calls, hcalls, hwrites, hle⟩ := ih fun j hj => h j (Nat.lt_succ_of_lt hj)
    rcases polled_polls h with ⟨_, hsame, hleft⟩ | ⟨⟨offered, answer, hcall⟩, hlt⟩
    · refine ⟨calls, ?_, hwrites, ?_⟩
      · rw [hsame, hcalls]
      · rwa [hleft]
    · refine ⟨calls ++ [.write offered answer], ?_, ?_, ?_⟩
      · rw [hcall, hcalls, List.append_assoc]
      · rw [List.forall_mem_append]
        exact ⟨hwrites, List.forall_mem_singleton.mpr ⟨offered, answer, rfl⟩⟩
      · rw [List.length_append]
        show calls.length + 1 + _ ≤ _
        omega

/-- A drain that goes on for ever waits from some poll on for a writer that is never ready. -/
theorem exists_waits_of_forall_draining
    (h : ∀ k, (polls rd wr options (enterDrain s) k).Draining) :
    ∃ k, ∀ n, k ≤ n → (polls rd wr options (enterDrain s) n).WriterWaits wr := by
  have hpolled := fun k => polled_polls (k := k) fun j (_ : j < k + 1) => h j
  have hanti : ∀ k j, (polls rd wr options (enterDrain s) (k + j)).callsLeft ≤
      (polls rd wr options (enterDrain s) k).callsLeft := by
    intro k j
    induction j with
    | zero => exact Nat.le_refl _
    | succ j ih =>
      rcases hpolled (k + j) with ⟨_, _, hsame⟩ | ⟨_, hlt⟩
      · exact Nat.le_trans (Nat.le_of_eq hsame) ih
      · exact Nat.le_trans (Nat.le_of_lt hlt) ih
  -- The induction is on the calls that are left: none is made any more, or the next one leaves less.
  have hleft : ∀ left k, (polls rd wr options (enterDrain s) k).callsLeft = left →
      ∃ k, ∀ n, k ≤ n → (polls rd wr options (enterDrain s) n).WriterWaits wr := by
    intro left
    induction left using Nat.strongRecOn with
    | ind left ih =>
      intro k hk
      by_cases hwaits : ∀ n, k ≤ n → (polls rd wr options (enterDrain s) n).WriterWaits wr
      · exact ⟨k, hwaits⟩
      · obtain ⟨n, hn⟩ := Classical.not_forall.mp hwaits
        obtain ⟨hle, hready⟩ := Classical.not_imp.mp hn
        obtain ⟨j, rfl⟩ := Nat.exists_eq_add_of_le hle
        have hbefore := hanti k j
        rcases hpolled (k + j) with ⟨hnot, _⟩ | ⟨_, hlt⟩
        · exact absurd hnot hready
        · exact ih _ (by omega) (k + j + 1) rfl
  exact hleft _ 0 rfl

/-- What a drain to empty does poll by poll, whether or not the writer is ever ready. -/
structure PollsContract (rd : RawReader ρ) (wr : RawWriter ω) (options : RelayOptions)
    (s : State ρ ω) : Prop where
  /-- Each answer so far was a write, and there are no more than in the contract. -/
  calls : ∀ {k}, (∀ j < k, (polls rd wr options (enterDrain s) j).Draining) →
    ∃ calls, (polls rd wr options (enterDrain s) k).state.calls.toList = s.calls.toList ++ calls ∧
      (∀ call ∈ calls, ∃ offered answer, call = .write offered answer) ∧
      calls.length ≤ s.ring.size + 1 ∧ (s.ring.size = 0 → calls = [])
  over_or_waits : (∃ k, ¬(polls rd wr options (enterDrain s) k).Draining) ∨
    ∃ k, ∀ n, k ≤ n → (polls rd wr options (enterDrain s) n).WriterWaits wr

theorem pollsContract (rd : RawReader ρ) (wr : RawWriter ω) (options : RelayOptions)
    (s : State ρ ω) : PollsContract rd wr options s where
  calls {k} h := by
    obtain ⟨calls, hcalls, hwrites, hle⟩ := exists_calls_polls h
    refine ⟨calls, hcalls, hwrites, ?_, fun hempty => ?_⟩
    · exact Nat.le_trans (Nat.le_trans (Nat.le_add_right _ _) hle) s.ring.callBound_le
    · have hnone : s.ring.callBound = 0 := by
        have hsum := s.ring.live_eq_size
        unfold Ring.callBound
        omega
      exact List.length_eq_zero_iff.mp (by omega)
  over_or_waits := by
    by_cases h : ∀ k, (polls rd wr options (enterDrain s) k).Draining
    · exact .inr (exists_waits_of_forall_draining h)
    · exact .inl (Classical.not_forall.mp h)

end Polls

end Relay

end RingRelay
