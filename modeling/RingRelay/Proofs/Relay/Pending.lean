import RingRelay.Proofs.Relay.Polls
/- What is in the ring while a relay waits for its reader.

   A relay drains the ring before every fill, but a fill may take two reads: the first goes up to
   the end of the array, and if it was answered in full and the ring did not begin at cell 0, a
   second one goes on at cell 0. While the relay waits for that one, the bytes of the first are
   staged and nobody has offered them to the writer.

   `Moment.Sound` is the invariant: at each poll of the reader the ring is empty, or it holds just
   the bytes of the call before. One poll keeps it (`advance_cases`) and so it holds after any
   number of polls (`sound_moments`). -/
namespace RingRelay

namespace Relay

variable {ρ ω : Type} {rd : RawReader ρ} {wr : RawWriter ω} {options : RelayOptions}

/-- The ring holds just what the last call delivered, a read that was answered in full and ended at
    the end of the array. It is not full, for it does not begin at cell 0. -/
def Staged (ring : Ring) (calls : List Call) : Prop :=
  0 < ring.position ∧ ring.size = ring.capacity - ring.position ∧
    ∃ earlier, calls = earlier ++ [.read ring.size (.ok ring.size) ring.contents]

/-- The relay waits for its reader. -/
def Moment.Reads (m : Moment ρ ω) : Prop := ∃ total, m.stage = .filling total

/-- Nothing is in the ring of a relay that waits for its reader or for a flush behind a drain. -/
def Stage.Clear (ring : Ring) : Stage → Prop
  | .filling _ => ring.size = 0
  | .flushing => ring.size = 0
  | _ => True

/-- The relay, which began with the ring `first`, waits for nothing while bytes are staged but for
    its writer. -/
structure Moment.Clear (first : Ring) (m : Moment ρ ω) : Prop where
  balanced : Balanced first m.state.calls.toList m.state.ring
  stage : m.stage.Clear m.state.ring

/-- The relay, which began with the ring `first`, waits for its reader while bytes are staged. -/
structure Moment.Holds (first : Ring) (m : Moment ρ ω) : Prop where
  balanced : Balanced first m.state.calls.toList m.state.ring
  reads : m.Reads
  staged : Staged m.state.ring m.state.calls.toList

/-- What there is between two polls. -/
def Moment.Sound (first : Ring) (m : Moment ρ ω) : Prop := m.Clear first ∨ m.Holds first

/-- The reader, waited for with an empty ring that does not begin at cell 0, has an answer ready
    that fills the row up to the end of the array. -/
structure Moment.ReachesEnd (rd : RawReader ρ) (m : Moment ρ ω) : Prop where
  reads : m.Reads
  contents_eq : m.state.ring.contents = []
  position_pos : 0 < m.state.ring.position
  answered : ∃ answer later,
    rd.poll m.state.source (m.state.ring.capacity - m.state.ring.position) =
        (.ready answer, later) ∧
      answer.result = .ok (m.state.ring.capacity - m.state.ring.position)

theorem Staged.size_pos {ring : Ring} {calls : List Call} (h : Staged ring calls) :
    0 < ring.size := by
  have := ring.position_lt_capacity
  have := h.2.1
  omega

theorem Moment.Sound.balanced {first : Ring} {m : Moment ρ ω} (h : m.Sound first) :
    Balanced first m.state.calls.toList m.state.ring := by
  rcases h with hclear | hholds
  · exact hclear.balanced
  · exact hholds.balanced

theorem Moment.Clear.size_eq_zero {first : Ring} {m : Moment ρ ω} (h : m.Clear first)
    (hreads : m.Reads) : m.state.ring.size = 0 := by
  obtain ⟨total, htotal⟩ := hreads
  have hstage := h.stage
  rw [htotal] at hstage
  exact hstage

section Steps

variable {first : Ring} {s : State ρ ω}

/-! ## Between polls -/

theorem clear_enterFill (h : Balanced first s.calls.toList s.ring) (hsize : s.ring.size = 0) :
    (enterFill s).Clear first := by
  unfold enterFill
  split
  · exact ⟨h, hsize⟩
  · exact ⟨h, trivial⟩

theorem clear_enterDrain (h : Balanced first s.calls.toList s.ring) :
    (enterDrain s).Clear first := by
  unfold enterDrain
  split
  · next hsize => exact clear_enterFill h hsize
  · exact ⟨h, trivial⟩

theorem clear_filled (h : Balanced first s.calls.toList s.ring) (n : Nat) :
    (filled s n).Clear first := by
  unfold filled
  split
  · exact ⟨h, trivial⟩
  · exact @clear_enterDrain ρ ω first (s.countFill n) h

theorem clear_emptyOn (options : RelayOptions) (h : Balanced first s.calls.toList s.ring) :
    (emptyOn options s).Clear first := by
  unfold emptyOn
  split
  · exact ⟨h, trivial⟩
  · next hsize =>
    have hnone : s.ring.size = 0 := by omega
    split
    · exact ⟨h, hnone⟩
    · exact @clear_enterFill ρ ω first s.countDrain h hnone

theorem clear_drained (options : RelayOptions) (h : Balanced first s.calls.toList s.ring)
    (pending n : Nat) : (drained options s pending n).Clear first := by
  unfold drained
  split
  · exact ⟨h, trivial⟩
  · exact @clear_emptyOn ρ ω first (s.countTaken n) options h

theorem clear_drainOn (options : RelayOptions) (h : Balanced first s.calls.toList s.ring)
    (pending total : Nat) : (drainOn options s pending total).Clear first := by
  unfold drainOn
  split
  · exact ⟨h, trivial⟩
  · exact clear_drained options h pending total

/-! ## One poll -/

theorem balanced_afterRead (h : Balanced first s.calls.toList s.ring) (answer : ReadAnswer)
    (total : Nat) (later : ρ) :
    Balanced first (s.afterRead (s.ring.absorbRead answer total) later).calls.toList
      (s.afterRead (s.ring.absorbRead answer total) later).ring := by
  simp only [State.afterRead, Array.toList_push]
  exact h.trans (Ring.moves_absorbRead s.ring answer total).toBalanced

theorem balanced_afterWrite (h : Balanced first s.calls.toList s.ring) (answer : WriteAnswer)
    (total : Nat) (later : ω) :
    Balanced first (s.afterWrite (s.ring.absorbWrite answer total) later).calls.toList
      (s.afterWrite (s.ring.absorbWrite answer total) later).ring := by
  simp only [State.afterWrite, Array.toList_push]
  exact h.trans (Ring.moves_absorbWrite s.ring answer total).toBalanced

theorem balanced_afterFlush (h : Balanced first s.calls.toList s.ring) (answer : FlushAnswer)
    (later : ω) :
    Balanced first (s.afterFlush answer later).calls.toList (s.afterFlush answer later).ring := by
  simp only [State.afterFlush, Array.toList_push]
  exact h.trans (.of_unmoved rfl rfl rfl rfl rfl)

/-- A read of an empty ring off cell 0 that is answered in full leaves a row free at cell 0. -/
theorem staged_afterRead {answer : ReadAnswer} {total : Nat} (later : ρ) (hsize : s.ring.size = 0)
    (hpos : 0 < s.ring.position) (hmore : (s.ring.absorbRead answer total).step = .more) :
    Staged (s.ring.absorbRead answer total).ring
        (s.afterRead (s.ring.absorbRead answer total) later).calls.toList ∧
      0 < (s.ring.absorbRead answer total).ring.writableRun := by
  have hcapacity := (Ring.moves_absorbRead s.ring answer total).capacity
  obtain ⟨hcontents, hposition⟩ := Ring.contents_absorbRead s.ring answer total
  obtain ⟨hresult, hgrown⟩ := Ring.absorbRead_of_more hmore
  have hrun := Ring.writableRun_of_size_eq_zero hsize
  have hlt := s.ring.position_lt_capacity
  rw [(Ring.contents_eq_nil_iff s.ring).mpr hsize, List.nil_append] at hcontents
  rw [hsize, Nat.zero_add] at hgrown
  refine ⟨⟨by omega, by omega, s.calls.toList, ?_⟩, ?_⟩
  · simp only [State.afterRead, Array.toList_push]
    rw [Ring.call_absorbRead_eq, hresult, hgrown, hcontents]
  · rw [Nat.pos_iff_ne_zero, Ne, Ring.writableRun_eq_zero_iff]
    omega

/-- A fill that goes on after an answer began with an empty ring off cell 0: from cell 0 its first
    read has filled the ring, and elsewhere its second one has. -/
theorem size_eq_zero_of_more {answer : ReadAnswer} {total : Nat}
    (hring : s.ring.size = 0 ∨ Staged s.ring s.calls.toList)
    (hmore : (s.ring.absorbRead answer total).step = .more)
    (hrun : 0 < (s.ring.absorbRead answer total).ring.writableRun) :
    s.ring.size = 0 ∧ 0 < s.ring.position := by
  have hlt := s.ring.position_lt_capacity
  have hcapacity := (Ring.moves_absorbRead s.ring answer total).capacity
  have hgrown := (Ring.absorbRead_of_more hmore).2
  have hroom : (s.ring.absorbRead answer total).ring.size ≠
      (s.ring.absorbRead answer total).ring.capacity := by
    rw [Ne, ← Ring.writableRun_eq_zero_iff]
    omega
  rcases hring with hzero | ⟨_, hstaged, _⟩
  · have := Ring.writableRun_of_size_eq_zero hzero
    exact ⟨hzero, by omega⟩
  · -- The row at cell 0 goes up to the oldest byte, so this answer has filled the ring.
    have hfull : s.ring.writableRun = s.ring.position := by
      unfold Ring.writableRun
      rw [if_neg (by omega)]
      omega
    omega

/-- After a poll of the reader no byte is staged while the relay waits for it, unless that was so
    before or the reader has just answered up to the end of the array. -/
theorem pollFill_cases (rd : RawReader ρ) {total : Nat}
    (h : (Moment.mk s (.filling total)).Sound first) :
    (pollFill rd s total).Clear first ∨ (pollFill rd s total).Holds first ∧
      ((Moment.mk s (.filling total)).Holds first ∨
        (Moment.mk s (.filling total)).ReachesEnd rd) := by
  unfold pollFill
  split
  · rcases h with hclear | hholds
    · exact .inl ⟨hclear.balanced, hclear.stage⟩
    · exact .inr ⟨⟨hholds.balanced, ⟨total, rfl⟩, hholds.staged⟩, .inl hholds⟩
  · next answer later hpoll =>
    have hbalanced := balanced_afterRead h.balanced answer total later
    have hring : s.ring.size = 0 ∨ Staged s.ring s.calls.toList :=
      h.imp (fun hclear => hclear.stage) (fun hholds => hholds.staged)
    simp only
    split
    · next hmore =>
      unfold fillOn
      split
      · next hrun =>
        -- The fill goes on, so this was its first read and the second one is at cell 0.
        obtain ⟨hsize, hpos⟩ := size_eq_zero_of_more hring hmore hrun
        have hfull := Ring.writableRun_of_size_eq_zero hsize
        refine .inr ⟨⟨hbalanced, ⟨_, rfl⟩, (staged_afterRead later hsize hpos hmore).1⟩, .inr ?_⟩
        refine ⟨⟨total, rfl⟩, (Ring.contents_eq_nil_iff _).mpr hsize, hpos, answer, later, ?_, ?_⟩
        · show rd.poll s.source (s.ring.capacity - s.ring.position) = _
          rw [← hfull, hpoll]
        · show answer.result = .ok (s.ring.capacity - s.ring.position)
          rw [← hfull, (Ring.absorbRead_of_more hmore).1]
      · exact .inl (clear_filled hbalanced _)
    · exact .inl (clear_filled hbalanced _)
    · exact .inl ⟨hbalanced, trivial⟩

theorem clear_pollDrain (wr : RawWriter ω) (options : RelayOptions) {pending total : Nat}
    (h : Balanced first s.calls.toList s.ring) :
    (pollDrain wr options s pending total).Clear first := by
  unfold pollDrain
  split
  · exact ⟨h, trivial⟩
  · next answer later _ =>
    have hbalanced := balanced_afterWrite h answer total later
    simp only
    split
    · exact clear_drainOn options hbalanced pending _
    · exact clear_drained options hbalanced pending _
    · exact ⟨hbalanced, trivial⟩

theorem clear_pollFlush (wr : RawWriter ω) {stage : Stage} {next : State ρ ω → Moment ρ ω}
    (h : Balanced first s.calls.toList s.ring) (hstage : stage.Clear s.ring)
    (hnext : ∀ later, (next (s.afterFlush (.ok ()) later)).Clear first) :
    (pollFlush wr s stage next).Clear first := by
  unfold pollFlush
  split
  · exact ⟨h, hstage⟩
  · next later _ => exact hnext later
  · next cause later _ => exact ⟨balanced_afterFlush h (.error cause) later, trivial⟩

end Steps

/-- What a poll can lead to. -/
theorem advance_cases (rd : RawReader ρ) (wr : RawWriter ω) (options : RelayOptions) {first : Ring}
    {m : Moment ρ ω} (h : m.Sound first) :
    (advance rd wr options m).Clear first ∨
      (advance rd wr options m).Holds first ∧ (m.Holds first ∨ m.ReachesEnd rd) := by
  have hbalanced := h.balanced
  obtain ⟨s, stage⟩ := m
  cases stage with
  | filling total => exact pollFill_cases rd h
  | draining pending total => exact .inl (clear_pollDrain wr options hbalanced)
  | flushing =>
    -- Bytes are staged only in a fill.
    have hsize : s.ring.size = 0 := by
      rcases h with hclear | ⟨_, ⟨total, htotal⟩, _⟩
      · exact hclear.stage
      · cases htotal
    refine .inl (clear_pollFlush wr hbalanced hsize ?_)
    intro later
    exact clear_enterFill (balanced_afterFlush hbalanced (.ok ()) later) hsize
  | finishing =>
    refine .inl (clear_pollFlush wr hbalanced trivial ?_)
    intro later
    exact ⟨balanced_afterFlush hbalanced (.ok ()) later, trivial⟩
  | ended result => exact .inl ⟨hbalanced, trivial⟩

/-- An answer up to the end of the array is followed by a poll of the reader with its bytes
    staged. -/
theorem holds_advance (wr : RawWriter ω) (options : RelayOptions) {first : Ring} {m : Moment ρ ω}
    (h : m.Sound first) (hend : m.ReachesEnd rd) : (advance rd wr options m).Holds first := by
  obtain ⟨⟨total, htotal⟩, hcontents, hpos, answer, later, hpoll, hresult⟩ := hend
  obtain ⟨s, stage⟩ := m
  obtain rfl : stage = .filling total := htotal
  have hsize := (Ring.contents_eq_nil_iff s.ring).mp hcontents
  have hfull := Ring.writableRun_of_size_eq_zero hsize
  have hlt := s.ring.position_lt_capacity
  replace hpoll : rd.poll s.source s.ring.writableRun = (.ready answer, later) := by
    rw [hfull]
    exact hpoll
  replace hresult : answer.result = .ok s.ring.writableRun := by
    rw [hfull]
    exact hresult
  have hmore : (s.ring.absorbRead answer total).step = .more :=
    Ring.step_absorbRead_of_full (by omega) hresult
  obtain ⟨hstaged, hrun⟩ := staged_afterRead later hsize hpos hmore
  have hstep : advance rd wr options ⟨s, .filling total⟩ =
      ⟨s.afterRead (s.ring.absorbRead answer total) later,
        .filling (total + (s.ring.absorbRead answer total).moved)⟩ := by
    simp only [advance, pollFill, hpoll]
    rw [hmore]
    exact if_pos hrun
  rw [hstep]
  exact ⟨balanced_afterRead h.balanced answer total later, ⟨_, rfl⟩, hstaged⟩

/-! ## Any number of polls -/

theorem sound_moments (rd : RawReader ρ) (wr : RawWriter ω) (options : RelayOptions) (ring : Ring)
    (source : ρ) (sink : ω) (n : Nat) :
    (moments rd wr options ring source sink n).Sound ring := by
  induction n with
  | zero => exact .inl (clear_enterDrain (.refl ring))
  | succ n ih => exact (advance_cases rd wr options ih).imp id And.left

theorem exists_reachesEnd_of_holds {ring : Ring} {source : ρ} {sink : ω} {n : Nat}
    (h : (moments rd wr options ring source sink n).Holds ring) :
    ∃ k, (moments rd wr options ring source sink k).ReachesEnd rd := by
  induction n with
  | zero =>
    have hclear : (moments rd wr options ring source sink 0).Clear ring :=
      clear_enterDrain (.refl ring)
    have hsize := hclear.size_eq_zero h.reads
    exact absurd hsize (Nat.ne_of_gt h.staged.size_pos)
  | succ n ih =>
    -- Bytes were staged before this poll, or they are the answer to it.
    rcases advance_cases rd wr options (sound_moments rd wr options ring source sink n) with
      hclear | ⟨_, hbefore | hend⟩
    · have hsize := hclear.size_eq_zero h.reads
      exact absurd hsize (Nat.ne_of_gt h.staged.size_pos)
    · exact ih hbefore
    · exact ⟨n, hend⟩

/-- A relay waits for its reader while bytes are staged exactly if at some time the reader answers
    up to the end of the array, from an empty ring that does not begin at cell 0. Whenever it waits
    for its reader, the writer has taken over everything, or everything but the answer of the call
    before, which then is such an answer. The ring begins where the bytes taken over leave it. -/
theorem exists_reads_with_contents_iff (rd : RawReader ρ) (wr : RawWriter ω)
    (options : RelayOptions) (ring : Ring) (source : ρ) (sink : ω) :
    ((∃ n, (moments rd wr options ring source sink n).Reads ∧
          (moments rd wr options ring source sink n).state.ring.contents ≠ []) ↔
        ∃ n, (moments rd wr options ring source sink n).ReachesEnd rd) ∧
      ∀ n (s : State ρ ω) (total : Nat),
        moments rd wr options ring source sink n = ⟨s, .filling total⟩ →
        s.ring.position = (ring.position + (acknowledged s.calls.toList).length) % ring.capacity ∧
        ((s.ring.contents = [] ∧
            acknowledged s.calls.toList = ring.contents ++ delivered s.calls.toList) ∨
          (0 < s.ring.position ∧ s.ring.size = ring.capacity - s.ring.position ∧ ∃ earlier,
            s.calls.toList = earlier ++ [.read s.ring.size (.ok s.ring.size) s.ring.contents] ∧
            acknowledged earlier = ring.contents ++ delivered earlier)) := by
  refine ⟨⟨?_, ?_⟩, ?_⟩
  · rintro ⟨n, hreads, hcontents⟩
    rcases sound_moments rd wr options ring source sink n with hclear | hholds
    · have hsize := hclear.size_eq_zero hreads
      exact absurd ((Ring.contents_eq_nil_iff _).mpr hsize) hcontents
    · exact exists_reachesEnd_of_holds hholds
  · rintro ⟨n, hend⟩
    have hholds := holds_advance wr options (sound_moments rd wr options ring source sink n) hend
    refine ⟨n + 1, hholds.reads, ?_⟩
    rw [Ne, Ring.contents_eq_nil_iff]
    exact Nat.ne_of_gt hholds.staged.size_pos
  · intro n s total hn
    have hsound := sound_moments rd wr options ring source sink n
    have hbalanced := hsound.balanced
    rw [hn] at hsound hbalanced
    have hconserves := hbalanced.conserves
    refine ⟨hbalanced.position, ?_⟩
    rcases hsound with hclear | ⟨_, _, hpos, hsize, earlier, hcalls⟩
    · have hnone := (Ring.contents_eq_nil_iff s.ring).mpr (hclear.size_eq_zero ⟨total, rfl⟩)
      rw [hnone, List.append_nil] at hconserves
      exact .inl ⟨hnone, hconserves⟩
    · rw [← hbalanced.capacity]
      refine .inr ⟨hpos, hsize, earlier, hcalls, ?_⟩
      rw [hcalls, acknowledged_append, delivered_append, ← List.append_assoc] at hconserves
      -- The last call is a read: it took nothing over and delivered all that is in the ring.
      have hlast : acknowledged earlier ++ [] ++ s.ring.contents =
          ring.contents ++ delivered earlier ++ (s.ring.contents ++ []) := hconserves
      rw [List.append_nil, List.append_nil] at hlast
      exact List.append_cancel_right hlast

/-- A relay through two cells, of a reader that answers with one byte, with one more, and then
    fails. When the first byte is gone, one cell is left to the end of the array. -/
def twoCells : Nat → Moment ReadScript WriteScript :=
  moments ReadScript.waitingReader.raw WriteScript.waitingWriter.raw {}
    ⟨Array.replicate 2 0, 0, 0, by decide, by decide, by decide⟩
    [.data [0x61], .data [0x62], .fail (.plain .connectionReset)] ⟨[], none, []⟩

/-- It is not so that the ring is empty whenever a relay waits for its reader. -/
theorem not_forall_reads_contents_eq_nil :
    ¬∀ (ρ ω : Type) (rd : RawReader ρ) (wr : RawWriter ω) (options : RelayOptions) (ring : Ring)
      (source : ρ) (sink : ω) (n : Nat), (moments rd wr options ring source sink n).Reads →
        (moments rd wr options ring source sink n).state.ring.contents = [] := by
  intro h
  have hreads : (twoCells 4).Reads := ⟨1, rfl⟩
  have hcontents : (twoCells 4).state.ring.contents = [] := h _ _ _ _ _ _ _ _ 4 hreads
  have hstaged : (twoCells 4).state.ring.contents = [0x62] := rfl
  rw [hstaged] at hcontents
  cases hcontents

end Relay

end RingRelay
