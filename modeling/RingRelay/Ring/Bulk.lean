import RingRelay.Ring.Basic
/- Whole-buffer operations on a ring: each either moves all the bytes it was asked to move or
   changes nothing. -/
namespace RingRelay.Ring

/-- Discards all live bytes. The cells keep their bytes, which are no longer live. -/
def empty (ring : Ring) : Ring :=
  { ring with
    position := 0
    size := 0
    position_lt := ring.capacity_pos
    size_le := Nat.zero_le _ }

/-- The bytes of the `len` cells from `position` on. -/
def oldest (ring : Ring) (len : Nat) : List UInt8 :=
  let region := Region.of ring.position len ring.capacity
  Cells.slice ring.cells region.first.start region.first.stop ++
    Cells.slice ring.cells region.second.start region.second.stop

/-- The `len` oldest bytes, which stay in the ring. -/
def peek (ring : Ring) (len : Nat) : Except RingError (List UInt8) :=
  if len ≤ ring.size then .ok (ring.oldest len)
  else .error (.insufficientData len ring.size)

/-- The `len` oldest bytes, and the ring without them. -/
def read (ring : Ring) (len : Nat) : Except RingError (List UInt8 × Ring) :=
  if h : len ≤ ring.size then .ok (ring.oldest len, ring.consume len h)
  else .error (.insufficientData len ring.size)

/-- The cells with `bytes` in those that follow the newest byte. -/
def placed (ring : Ring) (bytes : List UInt8) : Array UInt8 :=
  let region := Region.of ring.tail bytes.length ring.capacity
  Cells.store
    (Cells.store ring.cells region.first.start (bytes.take region.first.length))
    region.second.start (bytes.drop region.first.length)

@[simp] theorem size_placed (ring : Ring) (bytes : List UInt8) :
    (ring.placed bytes).size = ring.capacity := by
  simp [placed, capacity]

/-- The ring with `bytes` behind its newest byte. -/
def write (ring : Ring) (bytes : List UInt8) : Except RingError Ring :=
  if h : bytes.length ≤ ring.remaining then
    .ok
      { cells := ring.placed bytes
        position := ring.position
        size := ring.size + bytes.length
        position_lt := by rw [size_placed]; exact ring.position_lt
        size_le := by
          have := ring.size_le_capacity
          unfold remaining at h
          rw [size_placed]
          omega
        cells_le := by rw [size_placed]; exact ring.cells_le }
  else .error (.bufferFull bytes.length ring.remaining)

end RingRelay.Ring
