import RingRelay.Endpoint.Script
import RingRelay.Proofs.Ring.Operation
/- A ring is a bounded queue of bytes.

   `Queue.Step` says what a first-in-first-out queue of at most `capacity` bytes does in each
   operation; it knows no cells and no cursors. Every operation of a ring is such a step between the
   live bytes before and after it (`perform_step`), and so every use of a ring is a run of the queue
   (`performAll_runs`). -/
namespace RingRelay

/-- The calls of a fill by which `queue` becomes `later`, with what it returns: the reader answered
    them, what they delivered is appended and counted, and there are some unless the queue was
    full. -/
structure Queue.Filled {ρ : Type} (turn : ρ → Call → ρ → Prop) (source : ρ) (capacity : Nat)
    (queue : List UInt8) (o : Outcome) (later : List UInt8) : Prop where
  served : ∃ source', Served turn source o.calls source'
  later_eq : later = queue ++ delivered o.calls
  length_le : later.length ≤ capacity
  reply : ∃ result, o.reply = .ofResult result ∧ Counts .read (delivered o.calls).length result
  calls_eq_nil_iff : o.calls = [] ↔ queue.length = capacity

/-- The calls of a drain by which `queue` becomes `later`, with what it returns: the writer answered
    them, what they took over is dropped from the front and counted, and there are some unless the
    queue was empty. -/
structure Queue.Drained {ω : Type} (turn : ω → Call → ω → Prop) (sink : ω) (queue : List UInt8)
    (o : Outcome) (later : List UInt8) : Prop where
  served : ∃ sink', Served turn sink o.calls sink'
  queue_eq : queue = acknowledged o.calls ++ later
  reply : ∃ result, o.reply = .ofResult result ∧
    Counts .write (acknowledged o.calls).length result
  calls_eq_nil_iff : o.calls = [] ↔ queue = []

/-- What a queue of at most `capacity` bytes shows in an operation and what it holds then. -/
inductive Queue.Step (capacity : Nat) : List UInt8 → Operation → Outcome → List UInt8 → Prop
  | write {queue bytes : List UInt8} (h : bytes.length ≤ capacity - queue.length) :
      Step capacity queue (.write bytes) ⟨.done, []⟩ (queue ++ bytes)
  | writeRefused {queue bytes : List UInt8} (h : capacity - queue.length < bytes.length) :
      Step capacity queue (.write bytes)
        ⟨.refused (.bufferFull bytes.length (capacity - queue.length)), []⟩ queue
  | read {queue : List UInt8} {len : Nat} (h : len ≤ queue.length) :
      Step capacity queue (.read len) ⟨.bytes (queue.take len), []⟩ (queue.drop len)
  | readRefused {queue : List UInt8} {len : Nat} (h : queue.length < len) :
      Step capacity queue (.read len) ⟨.refused (.insufficientData len queue.length), []⟩ queue
  | peek {queue : List UInt8} {len : Nat} (h : len ≤ queue.length) :
      Step capacity queue (.peek len) ⟨.bytes (queue.take len), []⟩ queue
  | peekRefused {queue : List UInt8} {len : Nat} (h : queue.length < len) :
      Step capacity queue (.peek len) ⟨.refused (.insufficientData len queue.length), []⟩ queue
  | empty {queue : List UInt8} : Step capacity queue .empty ⟨.done, []⟩ []
  | fill {queue later : List UInt8} {o : Outcome} {ρ : Type} {rd : Reader ρ} {source : ρ}
      (h : Filled rd.Turn source capacity queue o later) :
      Step capacity queue (.fill rd source) o later
  | fillWaiting {queue later : List UInt8} {o : Outcome} {ρ : Type} {rd : WaitingReader ρ}
      {source : ρ} (h : Filled rd.Turn source capacity queue o later) :
      Step capacity queue (.fillWaiting rd source) o later
  | drain {queue later : List UInt8} {o : Outcome} {ω : Type} {wr : Writer ω} {sink : ω}
      (h : Drained wr.Turn sink queue o later) : Step capacity queue (.drain wr sink) o later
  | drainWaiting {queue later : List UInt8} {o : Outcome} {ω : Type} {wr : WaitingWriter ω}
      {sink : ω} (h : Drained wr.Turn sink queue o later) :
      Step capacity queue (.drainWaiting wr sink) o later

/-- The operations of a list, one after another. -/
inductive Queue.Runs (capacity : Nat) :
    List UInt8 → List Operation → List Outcome → List UInt8 → Prop
  | nil (queue : List UInt8) : Runs capacity queue [] [] queue
  | cons {queue middle later : List UInt8} {op : Operation} {o : Outcome} {ops : List Operation}
      {os : List Outcome} (first : Step capacity queue op o middle)
      (rest : Runs capacity middle ops os later) :
      Runs capacity queue (op :: ops) (o :: os) later

/-! ## A ring takes the steps of a queue -/

/-- A transfer that brings bytes in fills the queue of live bytes. -/
theorem Transfer.Moves.filled {ρ : Type} {turn : ρ → Call → ρ → Prop} {t : Transfer ρ}
    {ring : Ring} {source : ρ} (h : t.Moves .read ring 0)
    (hs : Served turn source t.calls t.endpoint)
    (hturn : ∀ {s call s'}, turn s call s' → call.acknowledged = [])
    (hcalls : t.calls = [] ↔ ring.size = ring.capacity) :
    Queue.Filled turn source ring.capacity ring.contents t.outcome t.ring.contents where
  served := ⟨t.endpoint, hs⟩
  later_eq := by
    have hnone : acknowledged t.calls = [] := hs.flatMap_eq_nil hturn
    simpa [hnone, Transfer.outcome] using h.conserves
  length_le := by
    rw [Ring.length_contents, ← h.capacity]
    exact t.ring.size_le_capacity
  reply := by
    have hnone : acknowledged t.calls = [] := hs.flatMap_eq_nil hturn
    exact ⟨t.result, rfl, by simpa [hnone, Transfer.outcome] using h.counts⟩
  calls_eq_nil_iff := by
    rw [Ring.length_contents]
    exact hcalls

/-- A transfer that takes bytes out drains the queue of live bytes. -/
theorem Transfer.Moves.drained {ω : Type} {turn : ω → Call → ω → Prop} {t : Transfer ω}
    {ring : Ring} {sink : ω} (h : t.Moves .write ring 0)
    (hs : Served turn sink t.calls t.endpoint)
    (hturn : ∀ {s call s'}, turn s call s' → call.delivered = [])
    (hcalls : t.calls = [] ↔ ring.size = 0) :
    Queue.Drained turn sink ring.contents t.outcome t.ring.contents where
  served := ⟨t.endpoint, hs⟩
  queue_eq := by
    have hnone : delivered t.calls = [] := hs.flatMap_eq_nil hturn
    simpa [hnone, Transfer.outcome] using h.conserves.symm
  reply := by
    have hnone : delivered t.calls = [] := hs.flatMap_eq_nil hturn
    exact ⟨t.result, rfl, by simpa [hnone, Transfer.outcome] using h.counts⟩
  calls_eq_nil_iff := by
    rw [Ring.contents_eq_nil_iff]
    exact hcalls

namespace Ring

theorem perform_write (ring : Ring) (bytes : List UInt8) :
    Queue.Step ring.capacity ring.contents (.write bytes) (ring.perform (.write bytes)).1
      (ring.perform (.write bytes)).2.contents := by
  by_cases h : bytes.length ≤ ring.remaining
  · obtain ⟨later, hw⟩ : ∃ later, ring.write bytes = .ok later := by simp [write, h]
    simp only [perform, hw, contents_of_write hw]
    exact .write (by rw [length_contents]; exact h)
  · have hw : ring.write bytes = .error (.bufferFull bytes.length ring.remaining) := by
      simp [write, h]
    have hroom : ring.capacity - ring.contents.length < bytes.length := by
      rw [length_contents]
      exact Nat.lt_of_not_le h
    have hstep := Queue.Step.writeRefused hroom
    rw [length_contents] at hstep
    simp only [perform, hw]
    exact hstep

theorem perform_read (ring : Ring) (len : Nat) :
    Queue.Step ring.capacity ring.contents (.read len) (ring.perform (.read len)).1
      (ring.perform (.read len)).2.contents := by
  by_cases h : len ≤ ring.size
  · simp only [perform, read, h, dite_true, oldest_eq_take, contents_consume]
    exact .read (by rwa [length_contents])
  · have hshort : ring.contents.length < len := by rw [length_contents]; omega
    have hstep : Queue.Step ring.capacity ring.contents (.read len) _ _ := .readRefused hshort
    rw [length_contents] at hstep
    simpa only [perform, read, h, dite_false] using hstep

theorem perform_peek (ring : Ring) (len : Nat) :
    Queue.Step ring.capacity ring.contents (.peek len) (ring.perform (.peek len)).1
      (ring.perform (.peek len)).2.contents := by
  by_cases h : len ≤ ring.size
  · simp only [perform, peek, h, if_true, oldest_eq_take]
    exact .peek (by rwa [length_contents])
  · have hshort : ring.contents.length < len := by rw [length_contents]; omega
    have hstep : Queue.Step ring.capacity ring.contents (.peek len) _ _ := .peekRefused hshort
    rw [length_contents] at hstep
    simpa only [perform, peek, h, if_false] using hstep

/-- Every operation of a ring is a step of the queue of its live bytes. -/
theorem perform_step (ring : Ring) (op : Operation) :
    Queue.Step ring.capacity ring.contents op (ring.perform op).1
      (ring.perform op).2.contents := by
  cases op with
  | write bytes => exact perform_write ring bytes
  | read len => exact perform_read ring len
  | peek len => exact perform_peek ring len
  | empty => simpa only [perform, contents_empty] using Queue.Step.empty
  | fill rd source =>
    exact .fill ((moves_fillFrom rd ring source 0).filled (served_fillFrom rd ring source 0)
      Reader.Turn.acknowledged (calls_fillFrom_eq_nil_iff rd ring source 0))
  | fillWaiting rd source =>
    exact .fillWaiting ((moves_fillWaitingFrom rd ring source 0).filled
      (served_fillWaitingFrom rd ring source 0) WaitingReader.Turn.acknowledged
      (calls_fillWaitingFrom_eq_nil_iff rd ring source 0))
  | drain wr sink =>
    exact .drain ((moves_drainFrom wr ring sink 0).drained (served_drainFrom wr ring sink 0)
      Writer.Turn.delivered (calls_drainFrom_eq_nil_iff wr ring sink 0))
  | drainWaiting wr sink =>
    exact .drainWaiting ((moves_drainWaitingFrom wr ring sink 0).drained
      (served_drainWaitingFrom wr ring sink 0) WaitingWriter.Turn.delivered
      (calls_drainWaitingFrom_eq_nil_iff wr ring sink 0))

/-- No operation changes the number of cells. -/
@[simp] theorem capacity_perform (ring : Ring) (op : Operation) :
    (ring.perform op).2.capacity = ring.capacity := by
  cases op with
  | write bytes =>
    simp only [perform]
    split
    · next later h => exact (cursors_of_write h).1
    · rfl
  | read len =>
    by_cases h : len ≤ ring.size
    · simp [perform, read, h]
    · simp [perform, read, h]
  | peek len => by_cases h : len ≤ ring.size <;> simp [perform, peek, h]
  | empty => rfl
  | fill rd source => exact (moves_fillFrom rd ring source 0).capacity
  | fillWaiting rd source => exact (moves_fillWaitingFrom rd ring source 0).capacity
  | drain wr sink => exact (moves_drainFrom wr ring sink 0).capacity
  | drainWaiting wr sink => exact (moves_drainWaitingFrom wr ring sink 0).capacity

/-- Any use of a ring is a run of the queue of its live bytes. -/
theorem performAll_runs (ring : Ring) (ops : List Operation) :
    Queue.Runs ring.capacity ring.contents ops (ring.performAll ops).1
      (ring.performAll ops).2.contents := by
  induction ops generalizing ring with
  | nil => exact .nil ring.contents
  | cons op ops ih =>
    have hrest := ih (ring.perform op).2
    rw [capacity_perform] at hrest
    exact .cons (perform_step ring op) hrest

/-- A new ring is an empty queue, and any use of it is a run of that queue. -/
theorem queue_of_create {memory capacity : Nat} {ring : Ring}
    (h : create memory capacity = .ok ring) (ops : List Operation) :
    Queue.Runs capacity [] ops (ring.performAll ops).1 (ring.performAll ops).2.contents := by
  have hruns := performAll_runs ring ops
  rwa [(of_create h).1, contents_of_create h] at hruns

/-- A use of three cells around the end of the array, by a reader that reports more than there is
    room for and by a writer that takes a part and then claims too much. -/
def wrappedUse : List Operation :=
  [.write [1, 2], .read 2, .fill ReadScript.reader [.data [3], .report 9], .write [4, 5, 6],
    .fillWaiting ReadScript.waitingReader [.notReady, .data [7, 8]],
    .drain WriteScript.writer ⟨[.accept 1, .report 5], none, []⟩, .peek 3, .empty]

theorem queue_of_create_wrapped :
    ∃ ring, create 8 3 = .ok ring ∧
      Queue.Runs 3 [] wrappedUse (ring.performAll wrappedUse).1 [] := by
  refine ⟨⟨Array.replicate 3 0, 0, 0, by decide, by decide, by decide⟩, rfl, ?_⟩
  exact @queue_of_create 8 3 _ rfl wrappedUse

end Ring

end RingRelay
