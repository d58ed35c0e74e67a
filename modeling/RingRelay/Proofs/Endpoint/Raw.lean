import RingRelay.Ring.Transfer
/- Endpoints that answer every call as ones that may not be ready, and these as endpoints of which
   nothing is known, not even that they answer at some time.

   A transfer with an endpoint that answers every call is the transfer with the same endpoint that
   is always ready (`fillWaitingFrom_waiting`, `drainWaitingFrom_waiting`). -/
namespace RingRelay

/-- A source of bytes that need not ever be ready. -/
structure RawReader (ρ : Type) where
  poll : ρ → Nat → Poll ReadAnswer × ρ

/-- A sink of bytes that need not ever be ready. -/
structure RawWriter (ω : Type) where
  poll : ω → List UInt8 → Poll WriteAnswer × ω
  flush : ω → Poll FlushAnswer × ω

/-- A reader that is always ready. -/
def Reader.waiting {ρ : Type} (rd : Reader ρ) : WaitingReader ρ where
  poll s room := (.ready (rd.read s room).1, (rd.read s room).2)
  patience _ := 0
  patience_lt h := by cases h

/-- A writer that is always ready. -/
def Writer.waiting {ω : Type} (wr : Writer ω) : WaitingWriter ω where
  poll s offered := (.ready (wr.write s offered).1, (wr.write s offered).2)
  flush := wr.flush
  patience _ := 0
  patience_lt h := by cases h

def WaitingReader.raw {ρ : Type} (rd : WaitingReader ρ) : RawReader ρ := ⟨rd.poll⟩

def WaitingWriter.raw {ω : Type} (wr : WaitingWriter ω) : RawWriter ω :=
  ⟨wr.poll, fun s => (.ready (wr.flush s).1, (wr.flush s).2)⟩

namespace Ring

section Fill

variable {ρ : Type}

/-- A fill whose reader is ready. -/
theorem fillWaitingFrom_of_ready {rd : WaitingReader ρ} {ring : Ring} {source later : ρ}
    {answer : ReadAnswer} (total : Nat) (hrun : 0 < ring.writableRun)
    (hp : rd.poll source ring.writableRun = (.ready answer, later)) :
    fillWaitingFrom rd ring source total =
      match (ring.absorbRead answer total).step with
      | .more =>
        (fillWaitingFrom rd (ring.absorbRead answer total).ring later
          (total + (ring.absorbRead answer total).moved)).after (ring.absorbRead answer total)
      | .done => (ring.absorbRead answer total).finish later
          (.ok (total + (ring.absorbRead answer total).moved))
      | .failed error => (ring.absorbRead answer total).finish later (.error error) := by
  rw [fillWaitingFrom, if_pos hrun]
  split
  · next later' hp' =>
    rw [hp] at hp'
    cases hp'
  · next answer' later' hp' =>
    rw [hp] at hp'
    cases hp'
    simp only
    -- Only the termination of the loop asks for the step's equation.
    generalize (ring.absorbRead answer total).step = step
    cases step <;> rfl

theorem fillWaitingFrom_waiting (rd : Reader ρ) (ring : Ring) (source : ρ) (total : Nat) :
    fillWaitingFrom rd.waiting ring source total = fillFrom rd ring source total := by
  have hp : ∀ (ring : Ring) (source : ρ), rd.waiting.poll source ring.writableRun =
      (.ready (rd.read source ring.writableRun).1, (rd.read source ring.writableRun).2) :=
    fun _ _ => rfl
  fun_induction fillFrom rd ring source total with
  | case1 ring source total hrun reply a ha ih =>
    rw [fillWaitingFrom_of_ready total hrun (hp ring source)]
    simp only [show (ring.absorbRead (rd.read source ring.writableRun).1 total).step = .more
      from ha]
    exact congrArg (Transfer.after · a) ih
  | case2 ring source total hrun reply a ha =>
    rw [fillWaitingFrom_of_ready total hrun (hp ring source)]
    simp only [show (ring.absorbRead (rd.read source ring.writableRun).1 total).step = .done
      from ha]
    rfl
  | case3 ring source total hrun reply a error ha =>
    rw [fillWaitingFrom_of_ready total hrun (hp ring source)]
    simp only [show (ring.absorbRead (rd.read source ring.writableRun).1 total).step =
      .failed error from ha]
    rfl
  | case4 ring source total hrun => rw [fillWaitingFrom, if_neg hrun]

end Fill

section Drain

variable {ω : Type}

/-- A drain whose writer is ready. -/
theorem drainWaitingFrom_of_ready {wr : WaitingWriter ω} {ring : Ring} {sink later : ω}
    {answer : WriteAnswer} (total : Nat) (hrun : 0 < ring.readableRun)
    (hp : wr.poll sink ring.readable = (.ready answer, later)) :
    drainWaitingFrom wr ring sink total =
      match (ring.absorbWrite answer total).step with
      | .more =>
        (drainWaitingFrom wr (ring.absorbWrite answer total).ring later
          (total + (ring.absorbWrite answer total).moved)).after (ring.absorbWrite answer total)
      | .done => (ring.absorbWrite answer total).finish later
          (.ok (total + (ring.absorbWrite answer total).moved))
      | .failed error => (ring.absorbWrite answer total).finish later (.error error) := by
  rw [drainWaitingFrom, dif_pos hrun]
  split
  · next later' hp' =>
    rw [hp] at hp'
    cases hp'
  · next answer' later' hp' =>
    rw [hp] at hp'
    cases hp'
    simp only
    generalize (ring.absorbWrite answer total).step = step
    cases step <;> rfl

theorem drainWaitingFrom_waiting (wr : Writer ω) (ring : Ring) (sink : ω) (total : Nat) :
    drainWaitingFrom wr.waiting ring sink total = drainFrom wr ring sink total := by
  have hp : ∀ (ring : Ring) (sink : ω), wr.waiting.poll sink ring.readable =
      (.ready (wr.write sink ring.readable).1, (wr.write sink ring.readable).2) :=
    fun _ _ => rfl
  fun_induction drainFrom wr ring sink total with
  | case1 ring sink total hrun reply a ha ih =>
    rw [drainWaitingFrom_of_ready total hrun (hp ring sink)]
    simp only [show (ring.absorbWrite (wr.write sink ring.readable).1 total).step = .more from ha]
    exact congrArg (Transfer.after · a) ih
  | case2 ring sink total hrun reply a ha =>
    rw [drainWaitingFrom_of_ready total hrun (hp ring sink)]
    simp only [show (ring.absorbWrite (wr.write sink ring.readable).1 total).step = .done from ha]
    rfl
  | case3 ring sink total hrun reply a error ha =>
    rw [drainWaitingFrom_of_ready total hrun (hp ring sink)]
    simp only [show (ring.absorbWrite (wr.write sink ring.readable).1 total).step =
      .failed error from ha]
    rfl
  | case4 ring sink total hrun => rw [drainWaitingFrom, dif_neg hrun]

end Drain

end Ring

end RingRelay
