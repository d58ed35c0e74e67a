import RingRelay.Proofs.Endpoint.Raw
/- Endpoints that may not be ready, polled until they answer.

   A transfer that finds its endpoint not ready asks it the same again. What the endpoint answers in
   the end is all that the transfer gets to know, so the transfer is the one with the settled
   endpoint, each of whose calls goes on until there is an answer (`fillWaitingFrom_eq_settled`,
   `drainWaitingFrom_eq_settled`). -/
namespace RingRelay

/-- Polls a reader with the same slice until it answers. -/
def WaitingReader.answer {ρ : Type} (rd : WaitingReader ρ) (source : ρ) (room : Nat) :
    ReadAnswer × ρ :=
  match _h : rd.poll source room with
  | (.pending, later) => rd.answer later room
  | (.ready answer, later) => (answer, later)
termination_by rd.patience source
decreasing_by exact rd.patience_lt _h

/-- Polls a writer with the same bytes until it answers. -/
def WaitingWriter.answer {ω : Type} (wr : WaitingWriter ω) (sink : ω) (offered : List UInt8) :
    WriteAnswer × ω :=
  match _h : wr.poll sink offered with
  | (.pending, later) => wr.answer later offered
  | (.ready answer, later) => (answer, later)
termination_by wr.patience sink
decreasing_by exact wr.patience_lt _h

/-- The reader each of whose calls goes on until there is an answer. -/
def WaitingReader.settled {ρ : Type} (rd : WaitingReader ρ) : Reader ρ := ⟨rd.answer⟩

/-- The writer each of whose calls goes on until there is an answer. -/
def WaitingWriter.settled {ω : Type} (wr : WaitingWriter ω) : Writer ω := ⟨wr.answer, wr.flush⟩

section Answers

variable {ρ ω : Type} {rd : WaitingReader ρ} {wr : WaitingWriter ω}

theorem WaitingReader.settled_of_ready {source later : ρ} {room : Nat} {answer : ReadAnswer}
    (h : rd.poll source room = (.ready answer, later)) :
    rd.settled.read source room = (answer, later) := by
  show rd.answer source room = _
  rw [WaitingReader.answer, h]

theorem WaitingReader.settled_of_pending {source later : ρ} {room : Nat}
    (h : rd.poll source room = (.pending, later)) :
    rd.settled.read source room = rd.settled.read later room := by
  show rd.answer source room = rd.answer later room
  rw [WaitingReader.answer, h]

theorem WaitingWriter.settled_of_ready {sink later : ω} {offered : List UInt8}
    {answer : WriteAnswer} (h : wr.poll sink offered = (.ready answer, later)) :
    wr.settled.write sink offered = (answer, later) := by
  show wr.answer sink offered = _
  rw [WaitingWriter.answer, h]

theorem WaitingWriter.settled_of_pending {sink later : ω} {offered : List UInt8}
    (h : wr.poll sink offered = (.pending, later)) :
    wr.settled.write sink offered = wr.settled.write later offered := by
  show wr.answer sink offered = wr.answer later offered
  rw [WaitingWriter.answer, h]

end Answers

namespace Ring

section Fill

variable {ρ : Type}

/-- A fill of a ring with room, by the answer of its reader. -/
theorem fillFrom_of_read {rd : Reader ρ} {ring : Ring} {source later : ρ} {answer : ReadAnswer}
    (total : Nat) (hrun : 0 < ring.writableRun)
    (h : rd.read source ring.writableRun = (answer, later)) :
    fillFrom rd ring source total =
      match (ring.absorbRead answer total).step with
      | .more =>
        (fillFrom rd (ring.absorbRead answer total).ring later
          (total + (ring.absorbRead answer total).moved)).after (ring.absorbRead answer total)
      | .done => (ring.absorbRead answer total).finish later
          (.ok (total + (ring.absorbRead answer total).moved))
      | .failed error => (ring.absorbRead answer total).finish later (.error error) := by
  have hp : rd.waiting.poll source ring.writableRun = (.ready answer, later) := by
    simp only [Reader.waiting, h]
  rw [← fillWaitingFrom_waiting, fillWaitingFrom_of_ready total hrun hp]
  generalize (ring.absorbRead answer total).step = step
  cases step with
  | more => exact congrArg (Transfer.after · _) (fillWaitingFrom_waiting ..)
  | done => rfl
  | failed error => rfl

theorem fillFrom_of_full {rd : Reader ρ} {ring : Ring} (source : ρ) (total : Nat)
    (hrun : ¬0 < ring.writableRun) : fillFrom rd ring source total = ring.idle source total := by
  rw [fillFrom, if_neg hrun]

theorem fillWaitingFrom_eq_settled (rd : WaitingReader ρ) (ring : Ring) (source : ρ)
    (total : Nat) :
    fillWaitingFrom rd ring source total = fillFrom rd.settled ring source total := by
  fun_induction fillWaitingFrom rd ring source total with
  | case1 ring source total hrun later hp ih =>
    -- Found not ready, the reader gives the answer that it gives when it is polled again.
    rcases hread : rd.settled.read later ring.writableRun with ⟨answer, last⟩
    have hsame := (WaitingReader.settled_of_pending hp).trans hread
    rw [ih, fillFrom_of_read total hrun hread, fillFrom_of_read total hrun hsame]
  | case2 ring source total hrun answer later hp a ha ih =>
    rw [ih, fillFrom_of_read total hrun (WaitingReader.settled_of_ready hp)]
    simp only [show (ring.absorbRead answer total).step = .more from ha]
    rfl
  | case3 ring source total hrun answer later hp a ha =>
    rw [fillFrom_of_read total hrun (WaitingReader.settled_of_ready hp)]
    simp only [show (ring.absorbRead answer total).step = .done from ha]
    rfl
  | case4 ring source total hrun answer later hp a error ha =>
    rw [fillFrom_of_read total hrun (WaitingReader.settled_of_ready hp)]
    simp only [show (ring.absorbRead answer total).step = .failed error from ha]
    rfl
  | case5 ring source total hrun => rw [fillFrom_of_full source total hrun]

theorem fillWaiting_eq_settled (rd : WaitingReader ρ) (ring : Ring) :
    ring.fillWaiting rd = ring.fill rd.settled :=
  funext fun source => fillWaitingFrom_eq_settled rd ring source 0

end Fill

section Drain

variable {ω : Type}

/-- A drain of a ring that holds something, by the answer of its writer. -/
theorem drainFrom_of_write {wr : Writer ω} {ring : Ring} {sink later : ω} {answer : WriteAnswer}
    (total : Nat) (hrun : 0 < ring.readableRun)
    (h : wr.write sink ring.readable = (answer, later)) :
    drainFrom wr ring sink total =
      match (ring.absorbWrite answer total).step with
      | .more =>
        (drainFrom wr (ring.absorbWrite answer total).ring later
          (total + (ring.absorbWrite answer total).moved)).after (ring.absorbWrite answer total)
      | .done => (ring.absorbWrite answer total).finish later
          (.ok (total + (ring.absorbWrite answer total).moved))
      | .failed error => (ring.absorbWrite answer total).finish later (.error error) := by
  have hp : wr.waiting.poll sink ring.readable = (.ready answer, later) := by
    simp only [Writer.waiting, h]
  rw [← drainWaitingFrom_waiting, drainWaitingFrom_of_ready total hrun hp]
  generalize (ring.absorbWrite answer total).step = step
  cases step with
  | more => exact congrArg (Transfer.after · _) (drainWaitingFrom_waiting ..)
  | done => rfl
  | failed error => rfl

theorem drainFrom_of_empty {wr : Writer ω} {ring : Ring} (sink : ω) (total : Nat)
    (hrun : ¬0 < ring.readableRun) : drainFrom wr ring sink total = ring.idle sink total := by
  rw [drainFrom, dif_neg hrun]

theorem drainWaitingFrom_eq_settled (wr : WaitingWriter ω) (ring : Ring) (sink : ω)
    (total : Nat) :
    drainWaitingFrom wr ring sink total = drainFrom wr.settled ring sink total := by
  fun_induction drainWaitingFrom wr ring sink total with
  | case1 ring sink total hrun later hp ih =>
    rcases hwrite : wr.settled.write later ring.readable with ⟨answer, last⟩
    have hsame := (WaitingWriter.settled_of_pending hp).trans hwrite
    rw [ih, drainFrom_of_write total hrun hwrite, drainFrom_of_write total hrun hsame]
  | case2 ring sink total hrun answer later hp a ha ih =>
    rw [ih, drainFrom_of_write total hrun (WaitingWriter.settled_of_ready hp)]
    simp only [show (ring.absorbWrite answer total).step = .more from ha]
    rfl
  | case3 ring sink total hrun answer later hp a ha =>
    rw [drainFrom_of_write total hrun (WaitingWriter.settled_of_ready hp)]
    simp only [show (ring.absorbWrite answer total).step = .done from ha]
    rfl
  | case4 ring sink total hrun answer later hp a error ha =>
    rw [drainFrom_of_write total hrun (WaitingWriter.settled_of_ready hp)]
    simp only [show (ring.absorbWrite answer total).step = .failed error from ha]
    rfl
  | case5 ring sink total hrun => rw [drainFrom_of_empty sink total hrun]

theorem drainWaiting_eq_settled (wr : WaitingWriter ω) (ring : Ring) :
    ring.drainWaiting wr = ring.drain wr.settled :=
  funext fun sink => drainWaitingFrom_eq_settled wr ring sink 0

end Drain

end Ring

end RingRelay
