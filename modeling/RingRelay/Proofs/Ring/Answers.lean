import RingRelay.Proofs.Ring.Flow
import RingRelay.Proofs.Ring.Placement
/- When an answer is a failure.

   A call fails with the endpoint's own error, or because more was reported than there was room for
   (`Call.failure?`). A transfer then fails too, with that error, and only then. Neither such a call
   nor one of a writer that took nothing moves a byte. -/
namespace RingRelay

/-- The error with which a call failed, if it did. -/
def Call.failure? : Call → Option IoError
  | .read _ (.error cause) _ => some cause
  | .read room (.ok n) _ => if room < n then some (.overReported n room) else none
  | .write _ (.error cause) => some cause
  | .write offered (.ok n) =>
    if offered.length < n then some (.overReported n offered.length) else none
  | .flush (.error cause) => some cause
  | .flush (.ok ()) => none

namespace Ring

theorem failure?_absorbRead_of_ok {ring : Ring} {answer : ReadAnswer} {total : Nat}
    (h : ∀ error, (ring.absorbRead answer total).step ≠ .failed error) :
    (ring.absorbRead answer total).call.failure? = none := by
  unfold absorbRead at h ⊢
  split at h
  · simp at h
  · split at h
    · next hle => simp only [hle, dite_true, Call.failure?, if_neg (Nat.not_lt.mpr hle)]
    · simp at h

theorem failure?_absorbRead_of_failed {ring : Ring} {answer : ReadAnswer} {total : Nat}
    {error : RingError} (h : (ring.absorbRead answer total).step = .failed error) :
    ∃ cause, error = .endpoint .read total cause ∧
      (ring.absorbRead answer total).call.failure? = some cause := by
  unfold absorbRead at h ⊢
  split at h
  · next cause _ => exact ⟨cause, (Step.failed.inj h).symm, rfl⟩
  · next n _ =>
    split at h
    · simp only at h
      split at h <;> cases h
    · next hnot =>
      refine ⟨_, (Step.failed.inj h).symm, ?_⟩
      simp only [hnot, dite_false, Call.failure?, if_pos (Nat.lt_of_not_le hnot)]

theorem failure?_absorbWrite_of_ok {ring : Ring} {answer : WriteAnswer} {total : Nat}
    (h : ∀ error, (ring.absorbWrite answer total).step ≠ .failed error) :
    (ring.absorbWrite answer total).call.failure? = none := by
  obtain ⟨hanswer, hle, _⟩ := absorbWrite_of_ok h
  rw [← length_readable] at hle
  rw [call_absorbWrite, hanswer, Call.failure?, if_neg (Nat.not_lt.mpr hle)]

theorem failure?_absorbWrite_of_failed {ring : Ring} {answer : WriteAnswer} {total : Nat}
    {error : RingError} (h : (ring.absorbWrite answer total).step = .failed error) :
    ∃ cause, error = .endpoint .write total cause ∧
      (ring.absorbWrite answer total).call.failure? = some cause ∧
      (ring.absorbWrite answer total).ring = ring := by
  unfold absorbWrite at h ⊢
  split at h
  · next cause => exact ⟨cause, (Step.failed.inj h).symm, rfl, rfl⟩
  · next n =>
    split at h
    · simp only at h
      split at h <;> cases h
    · next hnot =>
      have hover : ring.readableRun < n := by omega
      refine ⟨_, (Step.failed.inj h).symm, ?_⟩
      simp only [hnot, dite_false, Call.failure?, length_readable, if_pos hover, and_self]

/-- A writer that took nothing has left the ring as it was. -/
theorem absorbWrite_of_none {ring : Ring} {answer : WriteAnswer} {total : Nat}
    (hok : ∀ error, (ring.absorbWrite answer total).step ≠ .failed error)
    (hnone : (ring.absorbWrite answer total).moved = 0) :
    (ring.absorbWrite answer total).call = .write ring.readable (.ok 0) ∧
      (ring.absorbWrite answer total).ring = ring := by
  have hanswer := (absorbWrite_of_ok hok).1
  rw [hnone] at hanswer
  subst hanswer
  refine ⟨call_absorbWrite .., ?_⟩
  simp only [absorbWrite, Nat.zero_le, dite_true, consume_zero]

end Ring

end RingRelay
