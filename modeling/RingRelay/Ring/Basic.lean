import RingRelay.Ring.Cells
import RingRelay.Ring.Error
import RingRelay.Ring.Region
/- A ring: a fixed number of cells of which a circular run of `size` cells, from cell `position` on,
   holds the bytes that were put in and not yet taken out.

   The bounds on the two cursors are part of the type, so every operation that builds a ring shows
   that it keeps them. `Ring.contents` is what a ring means: the live bytes, oldest first. The
   other cells hold left-over bytes, which no operation shows. -/
namespace RingRelay

structure Ring where
  cells : Array UInt8
  /-- The cell of the oldest live byte. -/
  position : Nat
  /-- The number of live bytes. -/
  size : Nat
  position_lt : position < cells.size
  size_le : size ≤ cells.size
  cells_le : cells.size ≤ maxBlock

namespace Ring

def capacity (ring : Ring) : Nat := ring.cells.size

/-- The number of bytes that still fit. -/
def remaining (ring : Ring) : Nat := ring.capacity - ring.size

def isEmpty (ring : Ring) : Bool := ring.size == 0

def isFull (ring : Ring) : Bool := ring.size == ring.capacity

theorem capacity_pos (ring : Ring) : 0 < ring.capacity :=
  Nat.lt_of_le_of_lt (Nat.zero_le _) ring.position_lt

theorem position_lt_capacity (ring : Ring) : ring.position < ring.capacity := ring.position_lt

theorem size_le_capacity (ring : Ring) : ring.size ≤ ring.capacity := ring.size_le

/-- The live bytes, oldest first. -/
def contents (ring : Ring) : List UInt8 :=
  (List.range ring.size).map fun i => ring.cells.getD ((ring.position + i) % ring.capacity) 0

@[simp] theorem length_contents (ring : Ring) : ring.contents.length = ring.size := by
  simp [contents]

/-- An empty ring of `capacity` cells, all zero, when the allocator grants blocks of up to `memory`
    bytes. -/
def create (memory capacity : Nat) : Except RingError Ring :=
  if h0 : capacity = 0 then .error .zeroCapacity
  else if h : maxBlock < capacity then .error (.allocation capacity .tooLarge)
  else if memory < capacity then .error (.allocation capacity .refused)
  else .ok
    { cells := Array.replicate capacity 0
      position := 0
      size := 0
      position_lt := by simp; omega
      size_le := Nat.zero_le _
      cells_le := by simp; omega }

/-- The cell behind the newest byte, where the next one goes. -/
def tail (ring : Ring) : Nat := (ring.position + ring.size) % ring.capacity

theorem tail_lt (ring : Ring) : ring.tail < ring.capacity := Nat.mod_lt _ ring.capacity_pos

/-- How many live bytes lie in a row from `position` on. -/
def readableRun (ring : Ring) : Nat := min ring.size (ring.capacity - ring.position)

/-- How many free cells lie in a row from `tail` on. When the live bytes end before the end of the
    array the row reaches the end, otherwise it stops short of `position`. -/
def writableRun (ring : Ring) : Nat :=
  if ring.position + ring.size < ring.capacity then ring.capacity - (ring.position + ring.size)
  else ring.position - (ring.position + ring.size - ring.capacity)

theorem readableRun_le_size (ring : Ring) : ring.readableRun ≤ ring.size := Nat.min_le_left _ _

theorem writableRun_le_remaining (ring : Ring) : ring.writableRun ≤ ring.remaining := by
  have := ring.position_lt_capacity
  have := ring.size_le_capacity
  unfold writableRun remaining
  split <;> omega

/-- The live bytes of the first straight piece, which a writer is offered. -/
def readable (ring : Ring) : List UInt8 :=
  Cells.slice ring.cells ring.position (ring.position + ring.readableRun)

@[simp] theorem length_readable (ring : Ring) : ring.readable.length = ring.readableRun := by
  have h : ring.position + ring.readableRun ≤ ring.cells.size := by
    have := ring.position_lt
    unfold readableRun capacity
    omega
  simp [readable, Cells.length_slice _ h]

/-- Makes the `n` cells from `tail` on live. -/
def commit (ring : Ring) (n : Nat) (h : n ≤ ring.remaining) : Ring :=
  { ring with
    size := ring.size + n
    size_le := by
      have := ring.size_le_capacity
      unfold remaining at h
      change ring.size + n ≤ ring.capacity
      omega }

/-- Drops the `n` oldest bytes. -/
def consume (ring : Ring) (n : Nat) (_h : n ≤ ring.size) : Ring :=
  { ring with
    position := (ring.position + n) % ring.capacity
    size := ring.size - n
    position_lt := Nat.mod_lt _ ring.capacity_pos
    size_le := Nat.le_trans (Nat.sub_le _ _) ring.size_le }

/-- Changes cells of the free row behind `tail`, from its start on. Edits that would reach past the
    row are dropped. -/
def scribble (ring : Ring) (edits : List (Option UInt8)) : Ring :=
  { ring with
    cells := Cells.patch ring.cells ring.tail (edits.take ring.writableRun)
    position_lt := by rw [Cells.size_patch]; exact ring.position_lt
    size_le := by rw [Cells.size_patch]; exact ring.size_le
    cells_le := by rw [Cells.size_patch]; exact ring.cells_le }

@[simp] theorem capacity_commit (ring : Ring) (n : Nat) (h : n ≤ ring.remaining) :
    (ring.commit n h).capacity = ring.capacity := rfl

@[simp] theorem size_commit (ring : Ring) (n : Nat) (h : n ≤ ring.remaining) :
    (ring.commit n h).size = ring.size + n := rfl

@[simp] theorem position_commit (ring : Ring) (n : Nat) (h : n ≤ ring.remaining) :
    (ring.commit n h).position = ring.position := rfl

@[simp] theorem capacity_consume (ring : Ring) (n : Nat) (h : n ≤ ring.size) :
    (ring.consume n h).capacity = ring.capacity := rfl

@[simp] theorem size_consume (ring : Ring) (n : Nat) (h : n ≤ ring.size) :
    (ring.consume n h).size = ring.size - n := rfl

@[simp] theorem capacity_scribble (ring : Ring) (edits : List (Option UInt8)) :
    (ring.scribble edits).capacity = ring.capacity := by
  simp [scribble, capacity]

@[simp] theorem size_scribble (ring : Ring) (edits : List (Option UInt8)) :
    (ring.scribble edits).size = ring.size := rfl

@[simp] theorem position_scribble (ring : Ring) (edits : List (Option UInt8)) :
    (ring.scribble edits).position = ring.position := rfl

@[simp] theorem remaining_scribble (ring : Ring) (edits : List (Option UInt8)) :
    (ring.scribble edits).remaining = ring.remaining := by
  simp [remaining]

@[simp] theorem writableRun_scribble (ring : Ring) (edits : List (Option UInt8)) :
    (ring.scribble edits).writableRun = ring.writableRun := by
  simp [writableRun]

theorem remaining_commit (ring : Ring) (n : Nat) (h : n ≤ ring.remaining) :
    (ring.commit n h).remaining = ring.remaining - n := by
  simp [remaining]
  omega

/-- The free cells in a row from `tail` on, as they are now. -/
def writable (ring : Ring) : List UInt8 :=
  Cells.slice ring.cells ring.tail (ring.tail + ring.writableRun)

/-- The text that shows the cursors of a ring and none of its bytes. -/
def summary (ring : Ring) : String :=
  s!"RingBuffer \x7b capacity: {ring.capacity}, position: {ring.position}, size: {ring.size} \x7d"

end Ring

end RingRelay
