import RingRelay.Endpoint.Script
import RingRelay.Proofs.Relay.EndOfStream
import RingRelay.Proofs.Relay.Failures
import RingRelay.Proofs.Ring.Answers
/- What is left when a relay has failed.

   A relay goes no further than the first call that fails, so that is the last one (`FailedAt`), and
   neither it nor a writer that took nothing has moved a byte. What is in the ring then follows from
   what the relay was about (`Leaves`): a fill leaves just what it has brought so far, for it began with
   an empty ring, a drain leaves what the writer has not taken over, and a flush leaves nothing. Every
   poll keeps this (`Advances.answerable`). -/
namespace RingRelay

/-- None of the calls failed. -/
def Unfailing (calls : List Call) : Prop := ∀ call ∈ calls, call.failure? = none

/-- The last call failed, and it is the only one that did. -/
def FailedAt (calls : List Call) (call : Call) (cause : IoError) : Prop :=
  ∃ before, calls = before ++ [call] ∧ Unfailing before ∧ call.failure? = some cause

theorem Unfailing.concat {calls : List Call} {call : Call} (h : Unfailing calls)
    (hcall : call.failure? = none) : Unfailing (calls ++ [call]) :=
  List.forall_mem_append.mpr ⟨h, List.forall_mem_singleton.mpr hcall⟩

namespace Relay

/-- What a relay that began with the ring `first` and failed has left in the ring `last`. -/
inductive Leaves (first last : Ring) (calls : List Call) : RelayError → Prop
  /-- The bytes that the failed fill has brought are the last that were delivered, and they are all
      that is left. -/
  | reading {room : Nat} {result : Except IoError Nat} {cause : IoError} {earlier : List UInt8}
      (hfailed : FailedAt calls (.read room result []) cause)
      (hdelivered : delivered calls = earlier ++ last.contents)
      (hacknowledged : acknowledged calls = first.contents ++ earlier) :
      Leaves first last calls (.ring (.endpoint .read last.contents.length cause))
  /-- The bytes that were not taken over are left, and those of the failed write are the first of
      them. -/
  | writing {result : WriteAnswer} {transferred : Nat} {cause : IoError}
      (hfailed : FailedAt calls (.write last.readable result) cause)
      (hnone : (Call.write last.readable result).acknowledged = [])
      (hsome : last.contents ≠ [])
      (hrest : acknowledged calls ++ last.contents = first.contents ++ delivered calls) :
      Leaves first last calls (.ring (.endpoint .write transferred cause))
  | stalled {before : List Call}
      (hcalls : calls = before ++ [.write last.readable (.ok 0)]) (hgoes : Unfailing calls)
      (hsome : 0 < last.contents.length)
      (hrest : acknowledged calls ++ last.contents = first.contents ++ delivered calls) :
      Leaves first last calls (.stalledWriter last.contents.length)
  | flushing {cause : IoError} (hfailed : FailedAt calls (.flush (.error cause)) cause)
      (hempty : last.contents = [])
      (hacknowledged : acknowledged calls = first.contents ++ delivered calls) :
      Leaves first last calls (.flush cause)

/-- A relay that goes on or has ended well has met no failure, and one that has failed has left what
    its error says. -/
def Stage.Answerable (first last : Ring) (calls : List Call) : Stage → Prop
  | .ended (.error error) => Leaves first last calls error
  | _ => Unfailing calls

def Moment.Answerable {ρ ω : Type} (first : Ring) (m : Moment ρ ω) : Prop :=
  m.stage.Answerable first m.state.ring m.state.calls.toList

variable {ρ ω : Type} {rd : RawReader ρ} {wr : RawWriter ω} {options : RelayOptions} {first : Ring}

/-! ## One call -/

section Answers

variable {s : State ρ ω} {total : Nat} {a : Absorbed} {source : ρ} {sink : ω}

theorem State.Reads.unfailing (h : s.Reads rd total a source)
    (hok : ∀ error, a.step ≠ .failed error) (hgoes : Unfailing s.calls.toList) :
    Unfailing (s.afterRead a source).calls.toList := by
  rw [State.calls_afterRead]
  refine hgoes.concat ?_
  cases h
  exact Ring.failure?_absorbRead_of_ok hok

theorem State.Writes.unfailing (h : s.Writes wr total a sink)
    (hok : ∀ error, a.step ≠ .failed error) (hgoes : Unfailing s.calls.toList) :
    Unfailing (s.afterWrite a sink).calls.toList := by
  rw [State.calls_afterWrite]
  refine hgoes.concat ?_
  cases h
  exact Ring.failure?_absorbWrite_of_ok hok

theorem State.unfailing_afterFlush (hgoes : Unfailing s.calls.toList) (sink : ω) :
    Unfailing (s.afterFlush (.ok ()) sink).calls.toList := by
  rw [State.calls_afterFlush]
  exact hgoes.concat rfl

/-- While the relay waits for its reader, the bytes in the ring are the last that were delivered, and
    all that was there before them has been taken over. -/
theorem Moment.Sound.exists_earlier (h : (Moment.mk s (.filling total)).Sound first) :
    ∃ earlier, delivered s.calls.toList = earlier ++ s.ring.contents ∧
      acknowledged s.calls.toList = first.contents ++ earlier := by
  have hconserves : acknowledged s.calls.toList ++ s.ring.contents =
      first.contents ++ delivered s.calls.toList := h.balanced.conserves
  rcases h with hclear | ⟨_, _, _, _, before, hcalls⟩
  · have hnone : s.ring.contents = [] :=
      (Ring.contents_eq_nil_iff s.ring).mpr (hclear.size_eq_zero ⟨total, rfl⟩)
    rw [hnone, List.append_nil] at hconserves
    exact ⟨delivered s.calls.toList, by rw [hnone, List.append_nil], hconserves⟩
  · -- The last call has delivered just what is in the ring.
    have hdelivered : delivered s.calls.toList = delivered before ++ s.ring.contents := by
      rw [show s.calls.toList = _ from hcalls]
      simp [Call.delivered]
    refine ⟨delivered before, hdelivered, ?_⟩
    have hrest : acknowledged s.calls.toList ++ s.ring.contents =
        first.contents ++ delivered before ++ s.ring.contents := by
      rw [List.append_assoc, ← hdelivered, hconserves]
    exact List.append_cancel_right hrest

/-- A read that failed leaves what the fill has brought before it. -/
theorem State.Reads.leaves_of_failed {error : RingError} (h : s.Reads rd total a source)
    (hfailed : a.step = .failed error) (htotal : s.ring.size = total)
    (hsound : (Moment.mk s (.filling total)).Sound first) (hgoes : Unfailing s.calls.toList) :
    Leaves first a.ring (s.afterRead a source).calls.toList (.ring error) := by
  obtain ⟨earlier, hdelivered, hacknowledged⟩ := hsound.exists_earlier
  rw [State.calls_afterRead]
  cases h with
  | @mk answer _ h =>
    obtain ⟨cause, rfl, hcause⟩ := Ring.failure?_absorbRead_of_failed hfailed
    have hmoves := Ring.moves_absorbRead s.ring answer total
    have hnothing : (s.ring.absorbRead answer total).call.delivered = [] := by
      have hmoved := hmoves.moved
      rw [(hmoves.failed hfailed).1] at hmoved
      exact List.length_eq_zero_iff.mp (by omega)
    have hcontents : (s.ring.absorbRead answer total).ring.contents = s.ring.contents := by
      rw [(Ring.contents_absorbRead s.ring answer total).1, hnothing, List.append_nil]
    have hcall := Ring.call_absorbRead_eq s.ring answer total
    rw [hnothing] at hcall
    rw [hcall] at hcause ⊢
    have hlength : (s.ring.absorbRead answer total).ring.contents.length = total := by
      rw [hcontents, Ring.length_contents, htotal]
    rw [← hcontents] at hdelivered
    have hleaves : Leaves first (s.ring.absorbRead answer total).ring
        (s.calls.toList ++ [.read s.ring.writableRun answer.result []])
        (.ring (.endpoint .read (s.ring.absorbRead answer total).ring.contents.length cause)) :=
      .reading ⟨s.calls.toList, rfl, hgoes, hcause⟩ (by simpa [Call.delivered] using hdelivered)
        (by simpa [Call.acknowledged] using hacknowledged)
    rwa [hlength] at hleaves

/-- What is in the ring after a call that took nothing over and delivered nothing. -/
theorem conserves_concat {last : Ring} {calls : List Call} {call : Call}
    (h : Balanced first calls last) (hacknowledged : call.acknowledged = [])
    (hdelivered : call.delivered = []) :
    acknowledged (calls ++ [call]) ++ last.contents = first.contents ++ delivered (calls ++ [call]) :=
  (h.trans (.of_unmoved hacknowledged hdelivered rfl rfl rfl)).conserves

/-- A write that failed leaves the ring as it was. -/
theorem State.Writes.leaves_of_failed {error : RingError} (h : s.Writes wr total a sink)
    (hfailed : a.step = .failed error) (hsome : 0 < s.ring.size)
    (hbalanced : Balanced first s.calls.toList s.ring) (hgoes : Unfailing s.calls.toList) :
    Leaves first a.ring (s.afterWrite a sink).calls.toList (.ring error) := by
  have hdelivered := h.delivered
  have hlength := h.length_acknowledged
  rw [State.calls_afterWrite]
  cases h with
  | @mk answer _ h =>
    obtain ⟨cause, rfl, hcause, hring⟩ := Ring.failure?_absorbWrite_of_failed hfailed
    rw [((Ring.moves_absorbWrite s.ring answer total).failed hfailed).1] at hlength
    have hnone := List.length_eq_zero_iff.mp hlength
    rw [hring]
    rw [Ring.call_absorbWrite] at hdelivered hcause hnone ⊢
    refine .writing ⟨s.calls.toList, rfl, hgoes, hcause⟩ hnone ?_ ?_
    · rw [Ne, Ring.contents_eq_nil_iff]
      exact Nat.ne_of_gt hsome
    · exact conserves_concat hbalanced hnone hdelivered

/-- A drain whose first write took nothing leaves the ring as it was. -/
theorem State.Writes.leaves_of_none (h : s.Writes wr total a sink)
    (hok : ∀ error, a.step ≠ .failed error) (hnone : a.moved = 0) (hsome : 0 < s.ring.size)
    (hbalanced : Balanced first s.calls.toList s.ring) (hgoes : Unfailing s.calls.toList) :
    Leaves first a.ring (s.afterWrite a sink).calls.toList (.stalledWriter s.ring.size) := by
  have hanswered := h.unfailing hok hgoes
  have hdelivered := h.delivered
  have hlength := h.length_acknowledged
  rw [hnone, List.length_eq_zero_iff] at hlength
  rw [State.calls_afterWrite] at hanswered ⊢
  cases h with
  | @mk answer _ h =>
    obtain ⟨hcall, hring⟩ := Ring.absorbWrite_of_none hok hnone
    rw [hring, ← Ring.length_contents]
    rw [hcall] at hanswered hdelivered hlength ⊢
    refine .stalled rfl hanswered ?_ (conserves_concat hbalanced hlength hdelivered)
    rwa [Ring.length_contents]

/-- A flush that failed has been asked for behind an empty ring. -/
theorem State.leaves_of_flush {cause : IoError} (hempty : s.ring.size = 0)
    (hbalanced : Balanced first s.calls.toList s.ring) (hgoes : Unfailing s.calls.toList) (sink : ω) :
    Leaves first s.ring (s.afterFlush (.error cause) sink).calls.toList (.flush cause) := by
  have hnone : s.ring.contents = [] := (Ring.contents_eq_nil_iff s.ring).mpr hempty
  have hrest : acknowledged (s.calls.toList ++ [.flush (.error cause)]) ++ s.ring.contents =
      first.contents ++ delivered (s.calls.toList ++ [.flush (.error cause)]) :=
    conserves_concat hbalanced rfl rfl
  rw [hnone, List.append_nil] at hrest
  rw [State.calls_afterFlush]
  exact .flushing ⟨s.calls.toList, rfl, hgoes, rfl⟩ hnone hrest

end Answers

/-! ## Any number of calls -/

theorem Stage.answerable_behindDrain (options : RelayOptions) {last : Ring} {calls : List Call}
    (h : Unfailing calls) : (Stage.behindDrain options).Answerable first last calls := by
  unfold Stage.behindDrain
  split <;> exact h

/-- Every poll keeps it. -/
theorem Advances.answerable {m m' : Moment ρ ω} (h : Advances rd wr options m m')
    (hsized : m.Sized) (hsound : m.Sound first) (hm : m.Answerable first) :
    m'.Answerable first := by
  have hbalanced := hsound.balanced
  cases h with
  | readerWaits => exact hm
  | readsOn h hmore => exact h.unfailing (by simp [hmore]) hm
  | fills h hstep =>
    refine h.unfailing (fun error hfailed => ?_) hm
    rw [hfailed] at hstep
    rcases hstep with hmore | hdone
    · cases hmore
    · cases hdone
  | endsStream h hdone => exact h.unfailing (by simp [hdone]) hm
  | readFails h hfailed => exact h.leaves_of_failed hfailed hsized.1 hsound hm
  | writerWaits => exact hm
  | writesOn h hmore => exact h.unfailing (by simp [hmore]) hm
  | drainsAgain h hdone => exact h.unfailing (by simp [hdone]) hm
  | empties h hmore =>
    exact Stage.answerable_behindDrain options (h.unfailing (by simp [hmore]) hm)
  | @stalls s pending a later h hdone hnone =>
    -- Nothing has been moved since the drain began.
    have hpending : s.ring.size = pending := hsized.2
    rw [← hpending]
    exact h.leaves_of_none (by simp [hdone]) hnone hsized.1 hbalanced hm
  | writeFails h hfailed => exact h.leaves_of_failed hfailed hsized.1 hbalanced hm
  | flushWaits hstage =>
    rcases hstage with rfl | rfl
    · exact hm
    · exact hm
  | @flushes s later => exact State.unfailing_afterFlush hm later
  | @finishes s later => exact State.unfailing_afterFlush hm later
  | flushFails hstage =>
    rcases hstage with rfl | rfl
    · exact State.leaves_of_flush hsized hbalanced hm _
    · exact State.leaves_of_flush hsized hbalanced hm _
  | stays => exact hm

theorem answerable_moments (rd : RawReader ρ) (wr : RawWriter ω) (options : RelayOptions)
    (ring : Ring) (source : ρ) (sink : ω) (n : Nat) :
    (moments rd wr options ring source sink n).Answerable ring := by
  refine moments_induction ?_ (fun hsized hsound hm h => h.answerable hsized hsound hm) n
  have hnone : Unfailing [] := nofun
  unfold enterDrain
  split
  · next hempty =>
    rw [enterFill_of_empty hempty]
    exact hnone
  · exact hnone

/-- A relay that has ended polls nobody any more. -/
theorem moments_of_ended {ring : Ring} {source : ρ} {sink : ω} {n : Nat}
    {result : Except RelayError RelayStats}
    (h : (moments rd wr options ring source sink n).stage = .ended result) (k : Nat) :
    moments rd wr options ring source sink (n + k) = moments rd wr options ring source sink n := by
  induction k with
  | zero => rfl
  | succ k ih => rw [Nat.add_succ, moments, ih, advance, h]

/-- A relay returned as the machine ended. -/
theorem Returned.eq_of_moments (r : Returned) {n : Nat} {result : Except RelayError RelayStats}
    (h : (moments r.rd.raw r.wr.raw r.options r.ring r.source r.sink n).stage = .ended result) :
    r.state = (moments r.rd.raw r.wr.raw r.options r.ring r.source r.sink n).state ∧
      r.result = result := by
  obtain ⟨k, hk⟩ := r.exists_moments
  have hlater := moments_of_ended (congrArg Moment.stage hk) n
  rw [Nat.add_comm, moments_of_ended h k, hk] at hlater
  rw [hlater] at h ⊢
  exact ⟨rfl, Stage.ended.inj h⟩

theorem run_of_moments {rd : WaitingReader ρ} (ends : rd.Ends) {wr : WaitingWriter ω} {ring : Ring}
    {source : ρ} {sink : ω} {n : Nat} {result : Except RelayError RelayStats}
    (h : (moments rd.raw wr.raw options ring source sink n).stage = .ended result) :
    (run ends wr options ring source sink).result = result :=
  ((Returned.ofRun ends wr options ring source sink).eq_of_moments h).2

/-- The error of a relay says what it has left in the ring, and which call was its last. Until then
    no call fails, and no endpoint is called behind that one. -/
theorem leaves_of_error (rd : RawReader ρ) (wr : RawWriter ω) (options : RelayOptions) (ring : Ring)
    (source : ρ) (sink : ω) :
    (∀ n (s : State ρ ω) error,
        moments rd wr options ring source sink n = ⟨s, .ended (.error error)⟩ →
        Leaves ring s.ring s.calls.toList error ∧
          ∀ k, moments rd wr options ring source sink (n + k) = ⟨s, .ended (.error error)⟩) ∧
      (∀ n (s : State ρ ω) stage, moments rd wr options ring source sink n = ⟨s, stage⟩ →
        (∀ error, stage ≠ .ended (.error error)) → Unfailing s.calls.toList) ∧
      ∀ (r : Returned) error, r.result = .error error →
        Leaves r.ring r.state.ring r.calls error := by
  refine ⟨?_, ?_, ?_⟩
  · intro n s error hn
    have hanswerable := answerable_moments rd wr options ring source sink n
    have hstays := moments_of_ended (congrArg Moment.stage hn)
    rw [hn] at hanswerable hstays
    exact ⟨hanswerable, hstays⟩
  · intro n s stage hn hgoes
    have hanswerable := answerable_moments rd wr options ring source sink n
    rw [hn] at hanswerable
    cases stage with
    | ended result =>
      cases result with
      | ok stats => exact hanswerable
      | error error => exact absurd rfl (hgoes error)
    | filling => exact hanswerable
    | draining => exact hanswerable
    | flushing => exact hanswerable
    | finishing => exact hanswerable
  · intro r error herror
    obtain ⟨n, hn⟩ := r.exists_moments
    have hanswerable := answerable_moments r.rd.raw r.wr.raw r.options r.ring r.source r.sink n
    rw [hn, herror] at hanswerable
    exact hanswerable

/-- A relay through two cells whose reader fails in the second read of a fill: the one byte of the
    first read is left. -/
theorem leaves_of_error_twoCells :
    ∃ s, twoCells 5 =
          ⟨s, .ended (.error (.ring (.endpoint .read 1 (.plain .connectionReset))))⟩ ∧
      s.ring.contents = [0x62] ∧
      Leaves newPair s.ring s.calls.toList
        (.ring (.endpoint .read 1 (.plain .connectionReset))) ∧
      Unfailing (twoCells 4).state.calls.toList ∧
      ∃ r : Returned, r.result = .error (.ring (.endpoint .read 1 (.plain .connectionReset))) ∧
        Leaves r.ring r.state.ring r.calls (.ring (.endpoint .read 1 (.plain .connectionReset))) := by
  obtain ⟨hfailed, hgoes, hreturned⟩ := leaves_of_error ReadScript.waitingReader.raw
    WriteScript.waitingWriter.raw {} newPair
    [.data [0x61], .data [0x62], .fail (.plain .connectionReset)] ⟨[], none, []⟩
  have hended : (twoCells 5).stage =
      .ended (.error (.ring (.endpoint .read 1 (.plain .connectionReset)))) := rfl
  have hrun := run_of_moments ReadScript.ends hended
  obtain ⟨r, hr⟩ : ∃ r : Returned,
      r.result = .error (.ring (.endpoint .read 1 (.plain .connectionReset))) :=
    ⟨.ofRun .., hrun⟩
  exact ⟨_, rfl, rfl, (hfailed 5 _ _ rfl).1, hgoes 4 _ _ rfl nofun, r, hr, hreturned r _ hr⟩

end Relay

end RingRelay
