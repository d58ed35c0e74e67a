import RingRelay.Endpoint.Basic
import RingRelay.Log.Event
import RingRelay.Ring.Basic
/- Transfers: filling a ring from a reader and draining it into a writer.

   A transfer works on one straight piece of cells per endpoint call. It goes on only after a call
   that moved the whole piece, and so ends when no piece is left, at a short or zero count, or when
   the endpoint fails. What it moved before a failure stays moved.

   `Ring.fill` and `Ring.drain` work with endpoints that answer every call, `Ring.fillWaiting` and
   `Ring.drainWaiting` with endpoints that may not be ready and are then asked the same again. -/
namespace RingRelay

/-- How a transfer goes on after an answer of its endpoint. -/
inductive Step
  /-- The whole piece was moved. -/
  | more
  | done
  | failed (error : RingError)

/-- The effect of one answered call on a transfer: the ring afterwards, the bytes moved, and what is
    remembered and reported of it. -/
structure Absorbed where
  ring : Ring
  moved : Nat
  call : Call
  events : List Event
  step : Step

/-- A finished transfer: the bytes moved, or why it failed, the ring and the endpoint afterwards,
    and the calls and events in order. -/
structure Transfer (ε : Type) where
  result : Except RingError Nat
  ring : Ring
  endpoint : ε
  calls : List Call
  events : List Event

/-- The transfer with one answered call before it. -/
def Transfer.after {ε : Type} (t : Transfer ε) (first : Absorbed) : Transfer ε :=
  { t with calls := first.call :: t.calls, events := first.events ++ t.events }

/-- The transfer that consists of one answered call, after `total` bytes had been moved. -/
def Absorbed.finish {ε : Type} (a : Absorbed) (endpoint : ε) (result : Except RingError Nat) :
    Transfer ε :=
  ⟨result, a.ring, endpoint, [a.call], a.events⟩

@[simp] theorem Transfer.result_after {ε : Type} (t : Transfer ε) (first : Absorbed) :
    (t.after first).result = t.result := rfl

@[simp] theorem Transfer.ring_after {ε : Type} (t : Transfer ε) (first : Absorbed) :
    (t.after first).ring = t.ring := rfl

@[simp] theorem Transfer.endpoint_after {ε : Type} (t : Transfer ε) (first : Absorbed) :
    (t.after first).endpoint = t.endpoint := rfl

namespace Ring

/-- The transfer that calls nobody, after `total` bytes had been moved. -/
def idle {ε : Type} (ring : Ring) (endpoint : ε) (total : Nat) : Transfer ε :=
  ⟨.ok total, ring, endpoint, [], []⟩

/-! ## Filling -/

/-- Takes in an answer of a reader that was given the free row behind `tail`, after `total` bytes of
    this transfer. A report above the length of the row is the reader's failure. -/
def absorbRead (ring : Ring) (answer : ReadAnswer) (total : Nat) : Absorbed :=
  match answer.result with
  | .error cause =>
    { ring := ring.scribble answer.stores
      moved := 0
      call := .read ring.writableRun (.error cause) []
      events := [.endpointFailed .read total cause]
      step := .failed (.endpoint .read total cause) }
  | .ok n =>
    if h : n ≤ ring.writableRun then
      { ring := (ring.scribble answer.stores).commit n (by
          have := ring.writableRun_le_remaining
          rw [remaining_scribble]
          omega)
        moved := n
        call := .read ring.writableRun (.ok n)
          (Cells.slice (ring.scribble answer.stores).cells ring.tail (ring.tail + n))
        events := .readReturned ring.writableRun n ::
          (if n = 0 then [.endOfStream total]
            else if n < ring.writableRun then [.shortRead ring.writableRun n] else [])
        step := if n = 0 ∨ n < ring.writableRun then .done else .more }
    else
      { ring := ring.scribble answer.stores
        moved := 0
        call := .read ring.writableRun (.ok n) []
        events := [.readReturned ring.writableRun n,
          .endpointFailed .read total (.overReported n ring.writableRun)]
        step := .failed (.endpoint .read total (.overReported n ring.writableRun)) }

/-- What a transfer moved in takes up room. -/
theorem remaining_absorbRead (ring : Ring) (answer : ReadAnswer) (total : Nat) :
    (ring.absorbRead answer total).ring.remaining =
      ring.remaining - (ring.absorbRead answer total).moved := by
  unfold absorbRead
  split
  · simp
  · split
    · rw [remaining_commit, remaining_scribble]
    · simp

/-- A fill goes on only after it filled the whole row it offered. -/
theorem moved_absorbRead_of_more {ring : Ring} {answer : ReadAnswer} {total : Nat}
    (h : (ring.absorbRead answer total).step = .more) :
    (ring.absorbRead answer total).moved = ring.writableRun ∧ 0 < ring.writableRun := by
  unfold absorbRead at h ⊢
  split at h
  · simp at h
  · split at h
    · rename_i hle
      simp only [hle, dite_true]
      simp only [ite_eq_right_iff, reduceCtorEq, imp_false, not_or] at h
      omega
    · simp at h

/-- A fill takes in only what its reader reports. -/
theorem result_of_moved_absorbRead {ring : Ring} {answer : ReadAnswer} {total : Nat}
    (h : 0 < (ring.absorbRead answer total).moved) :
    answer.result = .ok (ring.absorbRead answer total).moved := by
  unfold absorbRead at h ⊢
  split at h
  · simp at h
  · rename_i n hn
    simp only [hn] at h ⊢
    split at h
    · rename_i hle
      simp only [hle, dite_true]
    · simp at h

theorem remaining_absorbRead_lt {ring : Ring} {answer : ReadAnswer} {total : Nat}
    (h : (ring.absorbRead answer total).step = .more) :
    (ring.absorbRead answer total).ring.remaining < ring.remaining := by
  have hle := ring.writableRun_le_remaining
  have hm := moved_absorbRead_of_more h
  rw [remaining_absorbRead]
  omega

/-- Fills the free cells from a reader, after `total` bytes of this transfer. -/
def fillFrom {ρ : Type} (rd : Reader ρ) (ring : Ring) (source : ρ) (total : Nat) : Transfer ρ :=
  if 0 < ring.writableRun then
    let reply := rd.read source ring.writableRun
    let a := ring.absorbRead reply.1 total
    match _h : a.step with
    | .more => (fillFrom rd a.ring reply.2 (total + a.moved)).after a
    | .done => a.finish reply.2 (.ok (total + a.moved))
    | .failed error => a.finish reply.2 (.error error)
  else ring.idle source total
termination_by ring.remaining
decreasing_by exact remaining_absorbRead_lt _h

/-- Fills the free cells from a reader. The result counts the bytes taken in; it is 0 for a full
    ring and at the end of the stream. -/
def fill {ρ : Type} (ring : Ring) (rd : Reader ρ) (source : ρ) : Transfer ρ :=
  fillFrom rd ring source 0

/-- Fills the free cells from a reader that may not be ready, after `total` bytes. -/
def fillWaitingFrom {ρ : Type} (rd : WaitingReader ρ) (ring : Ring) (source : ρ) (total : Nat) :
    Transfer ρ :=
  if 0 < ring.writableRun then
    match _hp : rd.poll source ring.writableRun with
    | (.pending, later) => fillWaitingFrom rd ring later total
    | (.ready answer, later) =>
      let a := ring.absorbRead answer total
      match _h : a.step with
      | .more => (fillWaitingFrom rd a.ring later (total + a.moved)).after a
      | .done => a.finish later (.ok (total + a.moved))
      | .failed error => a.finish later (.error error)
  else ring.idle source total
termination_by (ring.remaining, rd.patience source)
decreasing_by
  · exact Prod.Lex.right _ (rd.patience_lt _hp)
  · exact Prod.Lex.left _ _ (remaining_absorbRead_lt _h)

/-- Fills the free cells from a reader that may not be ready. -/
def fillWaiting {ρ : Type} (ring : Ring) (rd : WaitingReader ρ) (source : ρ) : Transfer ρ :=
  fillWaitingFrom rd ring source 0

/-! ## Draining -/

/-- Takes in an answer of a writer that was offered the first live bytes, after `total` bytes of
    this transfer. A report above what was offered is the writer's failure. -/
def absorbWrite (ring : Ring) (answer : WriteAnswer) (total : Nat) : Absorbed :=
  match answer with
  | .error cause =>
    { ring
      moved := 0
      call := .write ring.readable (.error cause)
      events := [.endpointFailed .write total cause]
      step := .failed (.endpoint .write total cause) }
  | .ok n =>
    if h : n ≤ ring.readableRun then
      { ring := ring.consume n (Nat.le_trans h ring.readableRun_le_size)
        moved := n
        call := .write ring.readable (.ok n)
        events := .writeReturned ring.readableRun n ::
          (if n < ring.readableRun then [.shortWrite ring.readableRun n] else [])
        step := if n < ring.readableRun then .done else .more }
    else
      { ring
        moved := 0
        call := .write ring.readable (.ok n)
        events := [.writeReturned ring.readableRun n,
          .endpointFailed .write total (.overReported n ring.readableRun)]
        step := .failed (.endpoint .write total (.overReported n ring.readableRun)) }

/-- What a transfer moved out is gone from the ring. -/
theorem size_absorbWrite (ring : Ring) (answer : WriteAnswer) (total : Nat) :
    (ring.absorbWrite answer total).ring.size =
      ring.size - (ring.absorbWrite answer total).moved := by
  unfold absorbWrite
  split
  · simp
  · split <;> simp

theorem moved_absorbWrite_le (ring : Ring) (answer : WriteAnswer) (total : Nat) :
    (ring.absorbWrite answer total).moved ≤ ring.size := by
  unfold absorbWrite
  split
  · simp
  · split
    · rename_i h
      exact Nat.le_trans h ring.readableRun_le_size
    · simp

/-- A drain goes on only after it emptied the piece it offered. -/
theorem moved_absorbWrite_of_more {ring : Ring} {answer : WriteAnswer} {total : Nat}
    (h : (ring.absorbWrite answer total).step = .more) :
    (ring.absorbWrite answer total).moved = ring.readableRun := by
  unfold absorbWrite at h ⊢
  split at h
  · simp at h
  · split at h
    · rename_i hle
      simp only [hle, dite_true]
      simp only [ite_eq_right_iff, reduceCtorEq, imp_false] at h
      omega
    · simp at h

theorem size_absorbWrite_lt {ring : Ring} {answer : WriteAnswer} {total : Nat}
    (hrun : 0 < ring.readableRun) (h : (ring.absorbWrite answer total).step = .more) :
    (ring.absorbWrite answer total).ring.size < ring.size := by
  have hle := ring.readableRun_le_size
  rw [size_absorbWrite, moved_absorbWrite_of_more h]
  omega

/-- Drains the live bytes into a writer, after `total` bytes of this transfer. -/
def drainFrom {ω : Type} (wr : Writer ω) (ring : Ring) (sink : ω) (total : Nat) : Transfer ω :=
  if _hrun : 0 < ring.readableRun then
    let reply := wr.write sink ring.readable
    let a := ring.absorbWrite reply.1 total
    match _h : a.step with
    | .more => (drainFrom wr a.ring reply.2 (total + a.moved)).after a
    | .done => a.finish reply.2 (.ok (total + a.moved))
    | .failed error => a.finish reply.2 (.error error)
  else ring.idle sink total
termination_by ring.size
decreasing_by exact size_absorbWrite_lt _hrun _h

/-- Drains the live bytes into a writer. The result counts the bytes the writer took. -/
def drain {ω : Type} (ring : Ring) (wr : Writer ω) (sink : ω) : Transfer ω :=
  drainFrom wr ring sink 0

/-- Drains the live bytes into a writer that may not be ready, after `total` bytes. -/
def drainWaitingFrom {ω : Type} (wr : WaitingWriter ω) (ring : Ring) (sink : ω) (total : Nat) :
    Transfer ω :=
  if _hrun : 0 < ring.readableRun then
    match _hp : wr.poll sink ring.readable with
    | (.pending, later) => drainWaitingFrom wr ring later total
    | (.ready answer, later) =>
      let a := ring.absorbWrite answer total
      match _h : a.step with
      | .more => (drainWaitingFrom wr a.ring later (total + a.moved)).after a
      | .done => a.finish later (.ok (total + a.moved))
      | .failed error => a.finish later (.error error)
  else ring.idle sink total
termination_by (ring.size, wr.patience sink)
decreasing_by
  · exact Prod.Lex.right _ (wr.patience_lt _hp)
  · exact Prod.Lex.left _ _ (size_absorbWrite_lt _hrun _h)

/-- What a drain counts is what the ring got shorter by. -/
theorem size_drainWaitingFrom {ω : Type} {wr : WaitingWriter ω} {ring : Ring} {sink : ω}
    {total n : Nat} (h : (drainWaitingFrom wr ring sink total).result = .ok n) :
    total ≤ n ∧ (drainWaitingFrom wr ring sink total).ring.size + n = ring.size + total := by
  fun_induction drainWaitingFrom wr ring sink total generalizing n with
  | case1 _ _ _ _ _ _ ih => exact ih h
  | case2 ring _ total _ answer _ _ a _ =>
    rename_i ih
    have hle : a.moved ≤ ring.size := ring.moved_absorbWrite_le answer total
    have hsize : a.ring.size = ring.size - a.moved := ring.size_absorbWrite answer total
    have := ih h
    simp only [Transfer.ring_after]
    omega
  | case3 ring _ total _ answer _ _ a =>
    have hle : a.moved ≤ ring.size := ring.moved_absorbWrite_le answer total
    have hsize : a.ring.size = ring.size - a.moved := ring.size_absorbWrite answer total
    obtain rfl : total + a.moved = n := by simpa [Absorbed.finish] using h
    simp only [Absorbed.finish]
    omega
  | case4 => simp [Absorbed.finish] at h
  | case5 ring _ total _ =>
    obtain rfl : total = n := by simpa [idle] using h
    simp [idle]

/-- Drains the live bytes into a writer that may not be ready. -/
def drainWaiting {ω : Type} (ring : Ring) (wr : WaitingWriter ω) (sink : ω) : Transfer ω :=
  drainWaitingFrom wr ring sink 0

end Ring

end RingRelay
