import RingRelay.Proofs.Guarded.Bare
import RingRelay.Proofs.Ring.Placement
/- Whole-buffer operations of a running program, in place.

   The operations of `Bare` give what they come to, and nothing where they are refused. A program has
   one ring and the buffer of its caller and changes both where they are: what it has changed before
   it is refused stays changed. `Memory` is what it changes, and each operation here gives its answer
   and the memory as it leaves it.

   Each checks the length of the buffer before it changes anything, so it does all or nothing
   (`bulk_contract`). -/
namespace RingRelay

/-- A ring and the buffer of its caller. -/
structure Memory where
  ring : Bare
  buffer : List UInt8

namespace Memory

section Operations

variable (build : Build) (m : Memory)

/-- Copies the oldest bytes over the buffer. -/
def peek : Guarded (Except RingError Unit × Memory) := do
  if m.ring.size < m.buffer.length then
    pure (.error (.insufficientData m.buffer.length m.ring.size), m)
  else do
    let region ← Bare.segments build m.ring.position m.buffer.length m.ring.capacity
    let buffer ← Bare.copyOut m.ring.cells region m.buffer
    pure (.ok (), { m with buffer })

/-- Moves the oldest bytes to the buffer. -/
def read : Guarded (Except RingError Unit × Memory) := do
  let (result, m) ← peek build m
  match result with
  | .error error => pure (.error error, m)
  | .ok () => do
    let ring ← Bare.consume build m.ring m.buffer.length
    pure (.ok (), { m with ring })

/-- Copies the buffer behind the newest byte. -/
def write : Guarded (Except RingError Unit × Memory) := do
  let room ← Bare.remaining build m.ring
  if room < m.buffer.length then pure (.error (.bufferFull m.buffer.length room), m)
  else do
    let tail ← Bare.tail build m.ring
    let region ← Bare.segments build tail m.buffer.length m.ring.capacity
    let cells ← Bare.copyIn m.ring.cells region m.buffer
    let ring ← Bare.commit build { m.ring with cells } m.buffer.length
    pure (.ok (), { m with ring })

end Operations

/-- What an operation comes to that began with the memory `m`, when the operation of the ring comes
    to `op`: it is refused exactly if the buffer is longer than `limit`, and then it has changed
    nothing, or it has done all that `done` says. -/
structure AllOrNothing {α : Type} (limit : Nat) (op : Except RingError α)
    (done : α → Memory → Prop) (m : Memory) (result : Except RingError Unit) (after : Memory) :
    Prop where
  refused_iff : (∃ error, result = .error error) ↔ limit < m.buffer.length
  unchanged : ∀ {error}, result = .error error → op = .error error ∧ after = m
  complete : result = .ok () → ∃ value, op = .ok value ∧ done value after

namespace AllOrNothing

variable {α : Type} {limit : Nat} {op : Except RingError α} {done : α → Memory → Prop}
  {m after : Memory}

theorem of_refused {error : RingError} (h : limit < m.buffer.length) (hop : op = .error error) :
    AllOrNothing limit op done m (.error error) m where
  refused_iff := iff_of_true ⟨error, rfl⟩ h
  unchanged herror := ⟨hop.trans (congrArg Except.error (Except.error.inj herror)), rfl⟩
  complete := nofun

theorem of_done {value : α} (h : m.buffer.length ≤ limit) (hop : op = .ok value)
    (hdone : done value after) : AllOrNothing limit op done m (.ok ()) after where
  refused_iff := iff_of_false nofun (Nat.not_lt.mpr h)
  unchanged := nofun
  complete _ := ⟨value, hop, hdone⟩

end AllOrNothing

/-- The memory behind a peek that gave `bytes`: they are all of the buffer, and the ring is as it
    was. -/
structure Peeked (ring : Ring) (len : Nat) (bytes : List UInt8) (after : Memory) : Prop where
  memory_eq : after = ⟨ring.bare, bytes⟩
  oldest : ring.OldestCells len bytes

/-- The memory behind a read: the ring has other cursors and the same cells. -/
structure ReadOut (ring : Ring) (len : Nat) (value : List UInt8 × Ring) (after : Memory) : Prop where
  memory_eq : after = ⟨value.2.bare, value.1⟩
  oldest : ring.OldestCells len value.1
  cells_eq : value.2.cells = ring.cells
  position_eq : value.2.position = (ring.position + len) % ring.capacity
  size_eq : value.2.size + len = ring.size

/-- The memory behind a write: the bytes of the buffer are in the cells behind the newest byte, and
    no other cell has changed, none of the live ones in particular. -/
structure Written (ring : Ring) (buffer : List UInt8) (later : Ring) (after : Memory) : Prop where
  memory_eq : after = ⟨later.bare, buffer⟩
  appends : ring.Appends buffer later
  live_eq : ∀ i < ring.size, later.cells[(ring.position + i) % ring.capacity]? =
    ring.cells[(ring.position + i) % ring.capacity]?

variable {build : Build}

/-! ## On the bare form of a ring -/

theorem peek_eq_bare (m : Memory) :
    peek build m = Bare.peek build m.ring m.buffer >>= fun
      | .error error => pure (.error error, m)
      | .ok buffer => pure (.ok (), { m with buffer }) := by
  unfold peek Bare.peek
  split
  · rw [pure_bind]
  · simp only [bind_assoc, pure_bind]

theorem write_eq_bare (m : Memory) :
    write build m = Bare.write build m.ring m.buffer >>= fun
      | .error error => pure (.error error, m)
      | .ok ring => pure (.ok (), { m with ring }) := by
  unfold write Bare.write
  simp only [bind_assoc]
  refine bind_congr fun room => ?_
  split
  · rw [pure_bind]
  · simp only [bind_assoc, pure_bind]

/-- A peek at the oldest bytes does all or nothing. -/
theorem allOrNothing_peek (build : Build) (ring : Ring) (buffer : List UInt8) :
    ∃ result after, peek build ⟨ring.bare, buffer⟩ = pure (result, after) ∧
      AllOrNothing ring.size (ring.peek buffer.length) (Peeked ring buffer.length)
        ⟨ring.bare, buffer⟩ result after := by
  rw [peek_eq_bare, Bare.peek_eq, pure_bind]
  by_cases h : buffer.length ≤ ring.size
  · have hpeek : ring.peek buffer.length = .ok (ring.oldest buffer.length) := if_pos h
    rw [hpeek]
    exact ⟨_, _, rfl, .of_done h rfl ⟨rfl, ring.oldestCells_oldest h⟩⟩
  · have hpeek : ring.peek buffer.length = .error (.insufficientData buffer.length ring.size) :=
      if_neg h
    rw [hpeek]
    exact ⟨_, _, rfl, .of_refused (Nat.lt_of_not_le h) rfl⟩

/-- A read of the oldest bytes does all or nothing. -/
theorem allOrNothing_read (build : Build) (ring : Ring) (buffer : List UInt8) :
    ∃ result after, read build ⟨ring.bare, buffer⟩ = pure (result, after) ∧
      AllOrNothing ring.size (ring.read buffer.length) (ReadOut ring buffer.length)
        ⟨ring.bare, buffer⟩ result after := by
  unfold read
  rw [peek_eq_bare, Bare.peek_eq, pure_bind]
  by_cases h : buffer.length ≤ ring.size
  · have hpeek : ring.peek buffer.length = .ok (ring.oldest buffer.length) := if_pos h
    have hread : ring.read buffer.length =
        .ok (ring.oldest buffer.length, ring.consume buffer.length h) := dif_pos h
    rw [hpeek, hread, pure_bind]
    simp only [ring.length_oldest h, Bare.consume_eq ring h, pure_bind]
    exact ⟨_, _, rfl, .of_done h rfl
      ⟨rfl, ring.oldestCells_oldest h, rfl, rfl, Nat.sub_add_cancel h⟩⟩
  · have hpeek : ring.peek buffer.length = .error (.insufficientData buffer.length ring.size) :=
      if_neg h
    have hread : ring.read buffer.length = .error (.insufficientData buffer.length ring.size) :=
      dif_neg h
    rw [hpeek, hread, pure_bind]
    exact ⟨_, _, rfl, .of_refused (Nat.lt_of_not_le h) rfl⟩

/-- A write behind the newest byte does all or nothing. -/
theorem allOrNothing_write (build : Build) (ring : Ring) (buffer : List UInt8) :
    ∃ result after, write build ⟨ring.bare, buffer⟩ = pure (result, after) ∧
      AllOrNothing ring.remaining (ring.write buffer) (Written ring buffer)
        ⟨ring.bare, buffer⟩ result after := by
  rw [write_eq_bare, Bare.write_eq, pure_bind]
  by_cases h : buffer.length ≤ ring.remaining
  · obtain ⟨later, hwrite, happends⟩ := Ring.appends_write h
    rw [hwrite]
    exact ⟨_, _, rfl, .of_done h rfl ⟨rfl, happends, fun _ hi => happends.live hi⟩⟩
  · have hwrite : ring.write buffer = .error (.bufferFull buffer.length ring.remaining) :=
      dif_neg h
    rw [hwrite]
    exact ⟨_, _, rfl, .of_refused (Nat.lt_of_not_le h) rfl⟩

/-- A write, a peek and a read of a running program on a ring and a buffer of any length return, and
    do all or nothing. A write is refused if the buffer is longer than the room that is left, a peek
    and a read if it is longer than what is there, and all three only then. -/
theorem bulk_contract (build : Build) (ring : Ring) (buffer : List UInt8) :
    (∃ result after, write build ⟨ring.bare, buffer⟩ = pure (result, after) ∧
        AllOrNothing ring.remaining (ring.write buffer) (Written ring buffer)
          ⟨ring.bare, buffer⟩ result after) ∧
      (∃ result after, peek build ⟨ring.bare, buffer⟩ = pure (result, after) ∧
        AllOrNothing ring.size (ring.peek buffer.length) (Peeked ring buffer.length)
          ⟨ring.bare, buffer⟩ result after) ∧
      ∃ result after, read build ⟨ring.bare, buffer⟩ = pure (result, after) ∧
        AllOrNothing ring.size (ring.read buffer.length) (ReadOut ring buffer.length)
          ⟨ring.bare, buffer⟩ result after :=
  ⟨allOrNothing_write build ring buffer, allOrNothing_peek build ring buffer,
    allOrNothing_read build ring buffer⟩

end Memory

end RingRelay
