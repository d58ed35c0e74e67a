import RingRelay.Program.Failure
import RingRelay.Proofs.Relay.Advances
/- How a relay fails, and when it cannot.

   What a relay does between two calls cannot fail, so each of its errors is one that an endpoint
   caused: a read or a write that failed or reported too much, a write that took nothing, or a flush
   that failed (`Advances.ofEndpoint`). If the endpoints never do such a thing (`Obliges`), a relay
   that returns has ended well (`Returned.exists_ok`). -/
namespace RingRelay

/-- The errors that an endpoint causes. -/
inductive RelayError.OfEndpoint : RelayError → Prop
  | transfer (direction : Direction) (transferred : Nat) (cause : IoError) :
      OfEndpoint (.ring (.endpoint direction transferred cause))
  | stalled (pending : Nat) : OfEndpoint (.stalledWriter pending)
  | flush (cause : IoError) : OfEndpoint (.flush cause)

theorem RelayError.OfEndpoint.exitCode {error : RelayError} (h : error.OfEndpoint) :
    (Failure.relay error).exitCode = 20 := by
  cases h <;> rfl

namespace Ring

/-- An answer that is a count and fits into the row is no failure. -/
theorem step_absorbRead_ne_failed {ring : Ring} {answer : ReadAnswer} {total n : Nat}
    (hanswer : answer.result = .ok n) (hfits : n ≤ ring.writableRun) (error : RingError) :
    (ring.absorbRead answer total).step ≠ .failed error := by
  unfold absorbRead
  rw [hanswer]
  simp only [hfits, dite_true]
  split <;> simp

theorem step_absorbWrite_ne_failed {ring : Ring} {total n : Nat} (hfits : n ≤ ring.readableRun)
    (error : RingError) : (ring.absorbWrite (.ok n) total).step ≠ .failed error := by
  unfold absorbWrite
  simp only [hfits, dite_true]
  split <;> simp

end Ring

namespace Relay

variable {ρ ω : Type} {rd : RawReader ρ} {wr : RawWriter ω} {options : RelayOptions}

/-! ## Every error is one of an endpoint -/

theorem State.Reads.error_of_failed {s : State ρ ω} {total : Nat} {a : Absorbed} {later : ρ}
    {error : RingError} (h : s.Reads rd total a later) (hfailed : a.step = .failed error) :
    ∃ cause, error = .endpoint .read total cause := by
  cases h
  exact ((Ring.moves_absorbRead ..).failed hfailed).2

theorem State.Writes.error_of_failed {s : State ρ ω} {total : Nat} {a : Absorbed} {later : ω}
    {error : RingError} (h : s.Writes wr total a later) (hfailed : a.step = .failed error) :
    ∃ cause, error = .endpoint .write total cause := by
  cases h
  exact ((Ring.moves_absorbWrite ..).failed hfailed).2

/-- A relay that has ended with an error was failed by an endpoint. -/
def Stage.FailedByEndpoint : Stage → Prop
  | .ended (.error error) => error.OfEndpoint
  | _ => True

theorem Stage.failedByEndpoint_behindDrain (options : RelayOptions) :
    (Stage.behindDrain options).FailedByEndpoint := by
  unfold Stage.behindDrain
  split <;> trivial

theorem Advances.ofEndpoint {m m' : Moment ρ ω} (h : Advances rd wr options m m')
    (hm : m.stage.FailedByEndpoint) : m'.stage.FailedByEndpoint := by
  cases h with
  | readFails h hfailed =>
    obtain ⟨cause, rfl⟩ := h.error_of_failed hfailed
    exact .transfer .read _ cause
  | writeFails h hfailed =>
    obtain ⟨cause, rfl⟩ := h.error_of_failed hfailed
    exact .transfer .write _ cause
  | @stalls s pending => exact .stalled pending
  | @flushFails s stage cause => exact .flush cause
  | empties => exact Stage.failedByEndpoint_behindDrain options
  | flushWaits => exact hm
  | stays => exact hm
  | readerWaits => trivial
  | readsOn => trivial
  | fills => trivial
  | endsStream => trivial
  | writerWaits => trivial
  | writesOn => trivial
  | drainsAgain => trivial
  | flushes => trivial
  | finishes => trivial

theorem failedByEndpoint_moments (rd : RawReader ρ) (wr : RawWriter ω) (options : RelayOptions)
    (ring : Ring) (source : ρ) (sink : ω) (n : Nat) :
    (moments rd wr options ring source sink n).stage.FailedByEndpoint := by
  refine moments_induction ?_ (fun _ _ hm h => h.ofEndpoint hm) n
  unfold enterDrain
  split
  · next hempty =>
    rw [enterFill_of_empty hempty]
    trivial
  · trivial

/-- The error with which a relay returns is one that an endpoint caused. -/
theorem Returned.ofEndpoint (r : Returned) {error : RelayError} (h : r.result = .error error) :
    error.OfEndpoint := by
  obtain ⟨n, hn⟩ := r.exists_moments
  have := failedByEndpoint_moments r.rd.raw r.wr.raw r.options r.ring r.source r.sink n
  rwa [hn, h] at this

end Relay

/-! ## Endpoints that cause none -/

/-- A reader that, as long as `p` holds of it, answers with counts that fit. -/
structure RawReader.Obliges {ρ : Type} (rd : RawReader ρ) (p : ρ → Prop) : Prop where
  waits : ∀ {source later room}, p source → rd.poll source room = (.pending, later) → p later
  answers : ∀ {source later room answer}, p source →
    rd.poll source room = (.ready answer, later) →
      p later ∧ ∃ n, answer.result = .ok n ∧ n ≤ room

/-- A writer that, as long as `q` holds of it, takes something of all that it is offered, reports no
    more than that, and can be flushed. -/
structure RawWriter.Obliges {ω : Type} (wr : RawWriter ω) (q : ω → Prop) : Prop where
  waits : ∀ {sink later offered}, q sink → wr.poll sink offered = (.pending, later) → q later
  answers : ∀ {sink later offered answer}, q sink →
    wr.poll sink offered = (.ready answer, later) →
      q later ∧ ∃ n, answer = .ok n ∧ n ≤ offered.length ∧ (offered ≠ [] → 0 < n)
  flushWaits : ∀ {sink later}, q sink → wr.flush sink = (.pending, later) → q later
  flushes : ∀ {sink later answer}, q sink → wr.flush sink = (.ready answer, later) →
    q later ∧ answer = .ok ()

namespace Relay

/-- Both endpoints still oblige, and the relay has not failed. -/
structure Moment.Obliged {ρ ω : Type} (p : ρ → Prop) (q : ω → Prop) (m : Moment ρ ω) : Prop where
  source : p m.state.source
  sink : q m.state.sink
  goes : ∀ error, m.stage ≠ .ended (.error error)

section Obliging

variable {p : ρ → Prop} {q : ω → Prop} {s : State ρ ω} {total : Nat} {a : Absorbed}

theorem State.Reads.obliged {later : ρ} (h : s.Reads rd total a later) (hrd : rd.Obliges p)
    (hs : p s.source) : p later ∧ ∀ error, a.step ≠ .failed error := by
  cases h with
  | mk h =>
    obtain ⟨hlater, n, hanswer, hfits⟩ := hrd.answers hs h
    exact ⟨hlater, Ring.step_absorbRead_ne_failed hanswer hfits⟩

theorem State.Writes.obliged {later : ω} (h : s.Writes wr total a later) (hwr : wr.Obliges q)
    (hs : q s.sink) (hsize : 0 < s.ring.size) :
    q later ∧ 0 < a.moved ∧ ∀ error, a.step ≠ .failed error := by
  cases h with
  | mk h =>
    obtain ⟨hlater, n, rfl, hfits, hsome⟩ := hwr.answers hs h
    rw [Ring.length_readable] at hfits
    have hstep : ∀ error, (s.ring.absorbWrite (.ok n) total).step ≠ .failed error :=
      Ring.step_absorbWrite_ne_failed hfits
    have hmoved := Except.ok.inj (Ring.absorbWrite_of_ok hstep).1
    -- The ring is not empty, so there is something in the row that is offered.
    have hoffered : s.ring.readable ≠ [] := by
      rw [← List.length_pos_iff, Ring.length_readable]
      have := mt (Ring.readableRun_eq_zero_iff s.ring).mp (Nat.ne_of_gt hsize)
      omega
    exact ⟨hlater, hmoved ▸ hsome hoffered, hstep⟩

theorem Advances.obliged {m m' : Moment ρ ω} (h : Advances rd wr options m m') (hsized : m.Sized)
    (hrd : rd.Obliges p) (hwr : wr.Obliges q) (hm : m.Obliged p q) : m'.Obliged p q := by
  cases h with
  | readerWaits h => exact ⟨hrd.waits hm.source h, hm.sink, nofun⟩
  | readsOn h => exact ⟨(h.obliged hrd hm.source).1, hm.sink, nofun⟩
  | fills h => exact ⟨(h.obliged hrd hm.source).1, hm.sink, nofun⟩
  | endsStream h => exact ⟨(h.obliged hrd hm.source).1, hm.sink, nofun⟩
  | readFails h hfailed => exact absurd hfailed ((h.obliged hrd hm.source).2 _)
  | writerWaits h => exact ⟨hm.source, hwr.waits hm.sink h, nofun⟩
  | writesOn h => exact ⟨hm.source, (h.obliged hwr hm.sink hsized.1).1, nofun⟩
  | drainsAgain h => exact ⟨hm.source, (h.obliged hwr hm.sink hsized.1).1, nofun⟩
  | empties h =>
    refine ⟨hm.source, (h.obliged hwr hm.sink hsized.1).1, ?_⟩
    show ∀ error, Stage.behindDrain options ≠ .ended (.error error)
    unfold Stage.behindDrain
    split <;> nofun
  | stalls h _ hnone =>
    have := (h.obliged hwr hm.sink hsized.1).2.1
    omega
  | writeFails h hfailed => exact absurd hfailed ((h.obliged hwr hm.sink hsized.1).2.2 _)
  | flushWaits hstage h => exact ⟨hm.source, hwr.flushWaits hm.sink h, hm.goes⟩
  | flushes h => exact ⟨hm.source, (hwr.flushes hm.sink h).1, nofun⟩
  | finishes h => exact ⟨hm.source, (hwr.flushes hm.sink h).1, nofun⟩
  | flushFails hstage h => exact nomatch (hwr.flushes hm.sink h).2
  | stays => exact hm

theorem obliged_moments (hrd : rd.Obliges p) (hwr : wr.Obliges q) (options : RelayOptions)
    (ring : Ring) {source : ρ} {sink : ω} (hsource : p source) (hsink : q sink) (n : Nat) :
    (moments rd wr options ring source sink n).Obliged p q := by
  refine moments_induction ?_ (fun hsized _ hm h => h.obliged hsized hrd hwr hm) n
  unfold enterDrain
  split
  · next hempty =>
    rw [enterFill_of_empty hempty]
    exact ⟨hsource, hsink, nofun⟩
  · exact ⟨hsource, hsink, nofun⟩

end Obliging

/-- A relay whose endpoints oblige ends well when it returns. -/
theorem Returned.exists_ok (r : Returned) {p : r.ρ → Prop} {q : r.ω → Prop}
    (hrd : r.rd.raw.Obliges p) (hwr : r.wr.raw.Obliges q) (hsource : p r.source)
    (hsink : q r.sink) : ∃ stats, r.result = .ok stats := by
  obtain ⟨n, hn⟩ := r.exists_moments
  have hgoes := (obliged_moments hrd hwr r.options r.ring hsource hsink n).goes
  rw [hn] at hgoes
  cases h : r.result with
  | ok stats => exact ⟨stats, rfl⟩
  | error error => exact absurd (congrArg Stage.ended h) (hgoes error)

end Relay

end RingRelay
