import RingRelay.Proofs.Relay.Pending
/- What one poll of a relay can do.

   `advance` goes on until the next poll, and what it does on its way there depends on the answer
   and on how full the ring is. `Advances` says once what this can be, with one case for each effect.
   It needs to know how many bytes are in the ring at each stage (`Stage.Sized`): only then is it
   sure that a drain follows each fill that brought something, and that a fill of an empty ring has
   room. So every poll is such a case (`advances_advance`), and what all cases keep holds after any
   number of polls (`moments_induction`). -/
namespace RingRelay

namespace Relay

variable {ρ ω : Type} {rd : RawReader ρ} {wr : RawWriter ω} {options : RelayOptions}

/-- The reader has an answer ready, which the ring takes in as `a`. -/
inductive State.Reads (rd : RawReader ρ) (s : State ρ ω) (total : Nat) : Absorbed → ρ → Prop
  | mk {answer : ReadAnswer} {later : ρ}
      (h : rd.poll s.source s.ring.writableRun = (.ready answer, later)) :
      Reads rd s total (s.ring.absorbRead answer total) later

/-- The writer has an answer ready, which the ring takes in as `a`. -/
inductive State.Writes (wr : RawWriter ω) (s : State ρ ω) (total : Nat) : Absorbed → ω → Prop
  | mk {answer : WriteAnswer} {later : ω}
      (h : wr.poll s.sink s.ring.readable = (.ready answer, later)) :
      Writes wr s total (s.ring.absorbWrite answer total) later

@[simp] theorem State.calls_afterRead (s : State ρ ω) (a : Absorbed) (later : ρ) :
    (s.afterRead a later).calls.toList = s.calls.toList ++ [a.call] := Array.toList_push

@[simp] theorem State.calls_afterWrite (s : State ρ ω) (a : Absorbed) (later : ω) :
    (s.afterWrite a later).calls.toList = s.calls.toList ++ [a.call] := Array.toList_push

@[simp] theorem State.calls_afterFlush (s : State ρ ω) (answer : FlushAnswer) (later : ω) :
    (s.afterFlush answer later).calls.toList = s.calls.toList ++ [.flush answer] :=
  Array.toList_push

/-- What is behind an empty ring: the flush, if it is asked for, or the next fill. -/
def Stage.behindDrain (options : RelayOptions) : Stage :=
  if options.flushOnDrain then .flushing else .filling 0

/-- One poll of the endpoint that the relay waits for, by its effect. -/
inductive Advances (rd : RawReader ρ) (wr : RawWriter ω) (options : RelayOptions) :
    Moment ρ ω → Moment ρ ω → Prop
  | readerWaits {s : State ρ ω} {total : Nat} {later : ρ}
      (h : rd.poll s.source s.ring.writableRun = (.pending, later)) :
      Advances rd wr options ⟨s, .filling total⟩ ⟨{ s with source := later }, .filling total⟩
  /-- The row up to the end of the array is full, and there is more room at cell 0. -/
  | readsOn {s : State ρ ω} {total : Nat} {a : Absorbed} {later : ρ}
      (h : s.Reads rd total a later) (hmore : a.step = .more) (hroom : 0 < a.ring.writableRun) :
      Advances rd wr options ⟨s, .filling total⟩
        ⟨s.afterRead a later, .filling (total + a.moved)⟩
  /-- The fill is over and has brought something, which is counted and drained. -/
  | fills {s : State ρ ω} {total : Nat} {a : Absorbed} {later : ρ}
      (h : s.Reads rd total a later) (hstep : a.step = .more ∨ a.step = .done)
      (hsome : 0 < total + a.moved) :
      Advances rd wr options ⟨s, .filling total⟩
        ⟨(s.afterRead a later).countFill (total + a.moved), .draining a.ring.size 0⟩
  /-- The fill is over and has brought nothing. -/
  | endsStream {s : State ρ ω} {a : Absorbed} {later : ρ} (h : s.Reads rd 0 a later)
      (hdone : a.step = .done) (hnone : a.moved = 0) :
      Advances rd wr options ⟨s, .filling 0⟩ ⟨s.afterRead a later, .finishing⟩
  | readFails {s : State ρ ω} {total : Nat} {a : Absorbed} {later : ρ} {error : RingError}
      (h : s.Reads rd total a later) (hfailed : a.step = .failed error) :
      Advances rd wr options ⟨s, .filling total⟩
        ⟨s.afterRead a later, .ended (.error (.ring error))⟩
  | writerWaits {s : State ρ ω} {pending total : Nat} {later : ω}
      (h : wr.poll s.sink s.ring.readable = (.pending, later)) :
      Advances rd wr options ⟨s, .draining pending total⟩
        ⟨{ s with sink := later }, .draining pending total⟩
  /-- The bytes up to the end of the array are gone, and there are more from cell 0 on. -/
  | writesOn {s : State ρ ω} {pending total : Nat} {a : Absorbed} {later : ω}
      (h : s.Writes wr total a later) (hmore : a.step = .more) (hrest : 0 < a.ring.size) :
      Advances rd wr options ⟨s, .draining pending total⟩
        ⟨s.afterWrite a later, .draining pending (total + a.moved)⟩
  /-- The writer took a part only, so the rest is drained anew. -/
  | drainsAgain {s : State ρ ω} {pending total : Nat} {a : Absorbed} {later : ω}
      (h : s.Writes wr total a later) (hdone : a.step = .done) (hsome : 0 < total + a.moved) :
      Advances rd wr options ⟨s, .draining pending total⟩
        ⟨(s.afterWrite a later).countTaken (total + a.moved), .draining a.ring.size 0⟩
  /-- The ring is empty, which is counted. -/
  | empties {s : State ρ ω} {pending total : Nat} {a : Absorbed} {later : ω}
      (h : s.Writes wr total a later) (hmore : a.step = .more) (hempty : a.ring.size = 0) :
      Advances rd wr options ⟨s, .draining pending total⟩
        ⟨((s.afterWrite a later).countTaken (total + a.moved)).countDrain, .behindDrain options⟩
  | stalls {s : State ρ ω} {pending : Nat} {a : Absorbed} {later : ω} (h : s.Writes wr 0 a later)
      (hdone : a.step = .done) (hnone : a.moved = 0) :
      Advances rd wr options ⟨s, .draining pending 0⟩
        ⟨s.afterWrite a later, .ended (.error (.stalledWriter pending))⟩
  | writeFails {s : State ρ ω} {pending total : Nat} {a : Absorbed} {later : ω}
      {error : RingError} (h : s.Writes wr total a later) (hfailed : a.step = .failed error) :
      Advances rd wr options ⟨s, .draining pending total⟩
        ⟨s.afterWrite a later, .ended (.error (.ring error))⟩
  | flushWaits {s : State ρ ω} {stage : Stage} {later : ω}
      (hstage : stage = .flushing ∨ stage = .finishing)
      (h : wr.flush s.sink = (.pending, later)) :
      Advances rd wr options ⟨s, stage⟩ ⟨{ s with sink := later }, stage⟩
  | flushes {s : State ρ ω} {later : ω} (h : wr.flush s.sink = (.ready (.ok ()), later)) :
      Advances rd wr options ⟨s, .flushing⟩ ⟨s.afterFlush (.ok ()) later, .filling 0⟩
  /-- The last flush went well, and so did the relay. -/
  | finishes {s : State ρ ω} {later : ω} (h : wr.flush s.sink = (.ready (.ok ()), later)) :
      Advances rd wr options ⟨s, .finishing⟩ (succeed (s.afterFlush (.ok ()) later))
  | flushFails {s : State ρ ω} {stage : Stage} {cause : IoError} {later : ω}
      (hstage : stage = .flushing ∨ stage = .finishing)
      (h : wr.flush s.sink = (.ready (.error cause), later)) :
      Advances rd wr options ⟨s, stage⟩
        ⟨s.afterFlush (.error cause) later, .ended (.error (.flush cause))⟩
  | stays {s : State ρ ω} (result : Except RelayError RelayStats) :
      Advances rd wr options ⟨s, .ended result⟩ ⟨s, .ended result⟩

/-! ## How many bytes are in the ring -/

/-- How many bytes are in the ring at a stage. -/
def Stage.Sized (ring : Ring) : Stage → Prop
  | .filling total => ring.size = total ∧ ring.size < ring.capacity
  | .draining pending total => 0 < ring.size ∧ ring.size + total = pending
  | .flushing => ring.size = 0
  | .finishing => ring.size = 0
  | .ended (.ok _) => ring.size = 0
  | .ended (.error _) => True

def Moment.Sized (m : Moment ρ ω) : Prop := m.stage.Sized m.state.ring

theorem Stage.sized_behindDrain (options : RelayOptions) {ring : Ring} (h : ring.size = 0) :
    (Stage.behindDrain options).Sized ring := by
  unfold Stage.behindDrain
  split
  · exact h
  · exact ⟨h, h ▸ ring.capacity_pos⟩

section Answers

variable {s : State ρ ω} {total : Nat} {a : Absorbed} {source : ρ} {sink : ω}

namespace State.Reads

theorem size (h : s.Reads rd total a source) : a.ring.size = s.ring.size + a.moved := by
  cases h
  exact Ring.size_absorbRead ..

theorem capacity (h : s.Reads rd total a source) : a.ring.capacity = s.ring.capacity := by
  cases h
  exact (Ring.moves_absorbRead ..).capacity

theorem acknowledged (h : s.Reads rd total a source) : a.call.acknowledged = [] := by
  cases h
  rw [Ring.call_absorbRead_eq]
  rfl

theorem length_delivered (h : s.Reads rd total a source) : a.call.delivered.length = a.moved := by
  have hnone := h.acknowledged
  cases h with
  | @mk answer _ h =>
    have hmoved := (Ring.moves_absorbRead s.ring answer total).moved
    rw [hnone, List.length_nil, Nat.zero_add] at hmoved
    exact hmoved.symm

/-- A fill goes on after a full read. -/
theorem call_of_more (h : s.Reads rd total a source) (hmore : a.step = .more) :
    a.call = .read a.moved (.ok a.moved) a.call.delivered ∧ 0 < a.moved := by
  cases h
  obtain ⟨hmoved, hpos⟩ := Ring.moved_absorbRead_of_more hmore
  rw [Ring.call_absorbRead_eq, (Ring.absorbRead_of_more hmore).1, hmoved]
  exact ⟨rfl, hpos⟩

theorem call_of_done (h : s.Reads rd total a source) (hroom : s.ring.size < s.ring.capacity)
    (hdone : a.step = .done) :
    ∃ room, a.call = .read room (.ok a.moved) a.call.delivered ∧ a.moved < room := by
  cases h
  have hpos : 0 < s.ring.writableRun := by
    rw [Nat.pos_iff_ne_zero, Ne, Ring.writableRun_eq_zero_iff]
    omega
  obtain ⟨hresult, hlt⟩ := Ring.absorbRead_of_done hpos hdone
  refine ⟨s.ring.writableRun, ?_, hlt⟩
  rw [Ring.call_absorbRead_eq, hresult]
  rfl

theorem call_of_failed (h : s.Reads rd total a source) {error : RingError}
    (hfailed : a.step = .failed error) :
    ∃ room result, a.call = .read room result a.call.delivered ∧ result ≠ .ok 0 := by
  cases h with
  | @mk answer _ h =>
    refine ⟨s.ring.writableRun, answer.result, ?_, Ring.result_ne_zero_of_failed hfailed⟩
    rw [Ring.call_absorbRead_eq]
    rfl

end State.Reads

namespace State.Writes

theorem size (h : s.Writes wr total a sink) :
    a.ring.size = s.ring.size - a.moved ∧ a.moved ≤ s.ring.size := by
  cases h
  exact ⟨Ring.size_absorbWrite .., Ring.moved_absorbWrite_le ..⟩

theorem delivered (h : s.Writes wr total a sink) : a.call.delivered = [] := by
  cases h
  rw [Ring.call_absorbWrite]
  rfl

theorem length_acknowledged (h : s.Writes wr total a sink) :
    a.call.acknowledged.length = a.moved := by
  have hnone := h.delivered
  cases h with
  | @mk answer _ h =>
    have hmoved := (Ring.moves_absorbWrite s.ring answer total).moved
    rw [hnone, List.length_nil, Nat.add_zero] at hmoved
    exact hmoved.symm

/-- The writer took over what it was offered, or a part of it. -/
theorem call_of_ok (h : s.Writes wr total a sink) (hok : ∀ error, a.step ≠ .failed error) :
    ∃ offered, a.call = .write offered (.ok a.moved) ∧ a.moved ≤ offered.length := by
  cases h
  obtain ⟨hanswer, hle, _⟩ := Ring.absorbWrite_of_ok hok
  refine ⟨s.ring.readable, ?_, by rwa [Ring.length_readable]⟩
  rw [Ring.call_absorbWrite, ← hanswer]

/-- A drain is done before the ring is empty. -/
theorem size_pos_of_done (h : s.Writes wr total a sink) (hdone : a.step = .done) :
    0 < a.ring.size := by
  obtain ⟨hsize, hmoved⟩ := h.size
  cases h with
  | @mk answer _ h =>
    have hok : ∀ error, (s.ring.absorbWrite answer total).step ≠ .failed error := by simp [hdone]
    obtain ⟨_, hle, hiff⟩ := Ring.absorbWrite_of_ok hok
    have hshort := mt hiff.mpr (by simp [hdone])
    have hrun := s.ring.readableRun_le_size
    omega

end State.Writes

end Answers

/-- Every poll leaves as many bytes in the ring as belong to the stage it leads to. -/
theorem Advances.sized {m m' : Moment ρ ω} (h : Advances rd wr options m m') (hm : m.Sized) :
    m'.Sized := by
  cases h with
  | readerWaits => exact hm
  | @readsOn s total a later h hmore hroom =>
    have htotal : s.ring.size = total := hm.1
    have hle := a.ring.size_le_capacity
    have hfree := mt (Ring.writableRun_eq_zero_iff a.ring).mpr (Nat.ne_of_gt hroom)
    refine ⟨?_, Nat.lt_of_le_of_ne hle hfree⟩
    show a.ring.size = total + a.moved
    rw [h.size, htotal]
  | @fills s total a later h hstep hsome =>
    have htotal : s.ring.size = total := hm.1
    refine ⟨?_, rfl⟩
    show 0 < a.ring.size
    rwa [h.size, htotal]
  | @endsStream s a later h hdone hnone =>
    have htotal : s.ring.size = 0 := hm.1
    show a.ring.size = 0
    rw [h.size, htotal, hnone]
  | readFails => trivial
  | writerWaits => exact hm
  | @writesOn s pending total a later h hmore hrest =>
    obtain ⟨hsize, hmoved⟩ := h.size
    have hpending : s.ring.size + total = pending := hm.2
    refine ⟨hrest, ?_⟩
    show a.ring.size + (total + a.moved) = pending
    omega
  | drainsAgain h hdone hsome => exact ⟨h.size_pos_of_done hdone, rfl⟩
  | empties h hmore hempty => exact Stage.sized_behindDrain options hempty
  | stalls => trivial
  | writeFails => trivial
  | flushWaits => exact hm
  | @flushes s later h =>
    have hempty : s.ring.size = 0 := hm
    refine ⟨hempty, ?_⟩
    show s.ring.size < s.ring.capacity
    rw [hempty]
    exact s.ring.capacity_pos
  | finishes => exact hm
  | flushFails => trivial
  | stays => exact hm

/-! ## Every poll is one of them -/

theorem enterFill_of_empty {s : State ρ ω} (h : s.ring.size = 0) :
    enterFill s = ⟨s, .filling 0⟩ := by
  have := s.ring.position_lt_capacity
  rw [enterFill, if_pos]
  rw [Ring.writableRun_of_size_eq_zero h]
  omega

theorem filled_of_pos {s : State ρ ω} {n : Nat} (hn : 0 < n) (hsize : 0 < s.ring.size) :
    filled s n = ⟨s.countFill n, .draining s.ring.size 0⟩ := by
  rw [filled, if_neg (Nat.ne_of_gt hn)]
  exact if_neg (Nat.ne_of_gt hsize)

theorem emptyOn_of_pos {s : State ρ ω} (h : 0 < s.ring.size) :
    emptyOn options s = ⟨s, .draining s.ring.size 0⟩ := if_pos h

theorem emptyOn_of_empty {s : State ρ ω} (h : s.ring.size = 0) :
    emptyOn options s = ⟨s.countDrain, .behindDrain options⟩ := by
  rw [emptyOn, if_neg (by omega), Stage.behindDrain]
  split
  · rfl
  · exact enterFill_of_empty h

theorem advances_pollFill (wr : RawWriter ω) (options : RelayOptions) {s : State ρ ω} {total : Nat}
    (hm : (Moment.mk s (.filling total)).Sized) :
    Advances rd wr options ⟨s, .filling total⟩ (pollFill rd s total) := by
  have htotal : s.ring.size = total := hm.1
  unfold pollFill
  split
  · next later h => exact .readerWaits h
  · next answer later h =>
    have hreads : s.Reads rd total (s.ring.absorbRead answer total) later := .mk h
    have hsize := hreads.size
    simp only
    split
    · next hmore =>
      have hsome := (hreads.call_of_more hmore).2
      unfold fillOn
      split
      · next hroom => exact .readsOn hreads hmore hroom
      · -- The ring is full now, so the fill is over without a short read.
        rw [filled_of_pos (by omega) (by show 0 < (s.ring.absorbRead answer total).ring.size; omega)]
        exact .fills hreads (.inl hmore) (by omega)
    · next hdone =>
      by_cases hnone : total + (s.ring.absorbRead answer total).moved = 0
      · rw [hnone, filled, if_pos rfl]
        obtain rfl : total = 0 := by omega
        exact .endsStream hreads hdone (by omega)
      · rw [filled_of_pos (by omega) (by show 0 < (s.ring.absorbRead answer total).ring.size; omega)]
        exact .fills hreads (.inr hdone) (by omega)
    · next error hfailed => exact .readFails hreads hfailed

theorem advances_pollDrain (rd : RawReader ρ) (options : RelayOptions) {s : State ρ ω}
    {pending total : Nat} (hm : (Moment.mk s (.draining pending total)).Sized) :
    Advances rd wr options ⟨s, .draining pending total⟩ (pollDrain wr options s pending total) := by
  have hpos : 0 < s.ring.size := hm.1
  unfold pollDrain
  split
  · next later h => exact .writerWaits h
  · next answer later h =>
    have hwrites : s.Writes wr total (s.ring.absorbWrite answer total) later := .mk h
    simp only
    split
    · next hmore =>
      unfold drainOn
      split
      · next hrest =>
        have hle := (s.ring.absorbWrite answer total).ring.readableRun_le_size
        exact .writesOn hwrites hmore (Nat.lt_of_lt_of_le hrest hle)
      · next hrest =>
        have hempty : (s.ring.absorbWrite answer total).ring.size = 0 :=
          (Ring.readableRun_eq_zero_iff _).mp (Nat.eq_zero_of_not_pos hrest)
        have hsize := hwrites.size
        -- There was something in the ring, so this drain has moved something.
        rw [drained, if_neg (by omega), emptyOn_of_empty hempty]
        exact .empties hwrites hmore hempty
    · next hdone =>
      by_cases hnone : total + (s.ring.absorbWrite answer total).moved = 0
      · rw [drained, if_pos hnone]
        obtain rfl : total = 0 := by omega
        exact .stalls hwrites hdone (by omega)
      · have hrest := hwrites.size_pos_of_done hdone
        rw [drained, if_neg hnone, emptyOn_of_pos (by exact hrest)]
        exact .drainsAgain hwrites hdone (by omega)
    · next error hfailed => exact .writeFails hwrites hfailed

/-- Every poll has one of these effects. -/
theorem advances_advance (rd : RawReader ρ) (wr : RawWriter ω) (options : RelayOptions)
    {m : Moment ρ ω} (hm : m.Sized) : Advances rd wr options m (advance rd wr options m) := by
  obtain ⟨s, stage⟩ := m
  cases stage with
  | filling total => exact advances_pollFill wr options hm
  | draining pending total => exact advances_pollDrain rd options hm
  | flushing =>
    show Advances rd wr options _ (pollFlush wr s .flushing enterFill)
    unfold pollFlush
    split
    · next later h => exact .flushWaits (.inl rfl) h
    · next later h =>
      have hempty : (s.afterFlush (.ok ()) later).ring.size = 0 := hm
      rw [enterFill_of_empty hempty]
      exact .flushes h
    · next cause later h => exact .flushFails (.inl rfl) h
  | finishing =>
    show Advances rd wr options _ (pollFlush wr s .finishing succeed)
    unfold pollFlush
    split
    · next later h => exact .flushWaits (.inr rfl) h
    · next later h => exact .finishes h
    · next cause later h => exact .flushFails (.inr rfl) h
  | ended result => exact .stays result

/-! ## Any number of polls -/

theorem sized_enterDrain (s : State ρ ω) : (enterDrain s).Sized := by
  unfold enterDrain
  split
  · next hempty =>
    rw [enterFill_of_empty hempty]
    refine ⟨hempty, ?_⟩
    show s.ring.size < s.ring.capacity
    rw [hempty]
    exact s.ring.capacity_pos
  · next hsize => exact ⟨Nat.pos_of_ne_zero hsize, rfl⟩

theorem sized_moments (rd : RawReader ρ) (wr : RawWriter ω) (options : RelayOptions) (ring : Ring)
    (source : ρ) (sink : ω) (n : Nat) : (moments rd wr options ring source sink n).Sized := by
  induction n with
  | zero => exact sized_enterDrain _
  | succ n ih => exact (advances_advance rd wr options ih).sized ih

/-- What holds in the beginning and is kept by every poll holds after any number of polls. -/
theorem moments_induction {p : Moment ρ ω → Prop} {ring : Ring} {source : ρ} {sink : ω}
    (hfirst : p (enterDrain (initial ring source sink)))
    (hstep : ∀ {m m' : Moment ρ ω}, m.Sized → m.Sound ring → p m → Advances rd wr options m m' →
      p m') (n : Nat) :
    p (moments rd wr options ring source sink n) := by
  induction n with
  | zero => exact hfirst
  | succ n ih =>
    have hsized := sized_moments rd wr options ring source sink n
    have hsound := sound_moments rd wr options ring source sink n
    exact hstep hsized hsound ih (advances_advance rd wr options hsized)

/-- The machine comes by the end of every relay that returned. -/
theorem Returned.exists_moments (r : Returned) :
    ∃ n, moments r.rd.raw r.wr.raw r.options r.ring r.source r.sink n =
      ⟨r.state, .ended r.result⟩ := by
  obtain ⟨k, hk⟩ := r.ended
  obtain ⟨n, hn⟩ := exists_moments_eq_rounds r.rd r.wr r.options r.ring r.source r.sink k
  rw [hk] at hn
  exact ⟨n, hn⟩

end Relay

end RingRelay
