import RingRelay.Proofs.Guarded.Word
import RingRelay.Proofs.Ring.Contents
import RingRelay.Ring.Bulk
/- A ring as a running program has it: an array and two numbers of which nothing is known.

   `Ring` carries its bounds in its type, and its operations are exact. The operations here are
   those of a program: each sum, each slice and each copy is one that may break down (`Guarded`). On
   the bare form of a ring none of them does, whatever the build, and each gives what the operation
   of the ring gives (`Bare.segments_eq` and its like). -/
namespace RingRelay

structure Bare where
  cells : Array UInt8
  position : Nat
  size : Nat

/-- The ring without what is known of it. -/
def Ring.bare (ring : Ring) : Bare := ⟨ring.cells, ring.position, ring.size⟩

namespace Bare

section Operations

variable (build : Build) (r : Bare)

def capacity : Nat := r.cells.size

def remaining : Guarded Nat := build.sub r.capacity r.size

/-- The two pieces of `len` cells that follow one another from `start`. -/
def segments (start len capacity : Nat) : Guarded Region := do
  build.assert (start < capacity)
  build.assert (len ≤ capacity)
  let room ← build.sub capacity start
  let first := min len room
  let stop ← build.add start first
  let second ← build.sub len first
  pure ⟨⟨start, stop⟩, ⟨0, second⟩⟩

def tail : Guarded Nat := do
  let stop ← build.add r.position r.size
  Guarded.rem stop r.capacity

def readableRun : Guarded Nat := do
  let room ← build.sub r.capacity r.position
  pure (min r.size room)

def writableRun : Guarded Nat := do
  let stop ← build.add r.position r.size
  if stop < r.capacity then build.sub r.capacity stop
  else do
    let past ← build.sub stop r.capacity
    build.sub r.position past

/-- The bytes that a writer is offered. -/
def readable : Guarded (List UInt8) := do
  let run ← readableRun build r
  let stop ← build.add r.position run
  Guarded.slice r.cells ⟨r.position, stop⟩

/-- The cells that a reader is given. -/
def writable : Guarded Span := do
  let tail ← tail build r
  let run ← writableRun build r
  let stop ← build.add tail run
  Guarded.within ⟨tail, stop⟩ r.cells.size
  pure ⟨tail, stop⟩

def commit (n : Nat) : Guarded Bare := do
  let room ← remaining build r
  build.assert (n ≤ room)
  let size ← build.add r.size n
  pure { r with size }

def consume (n : Nat) : Guarded Bare := do
  build.assert (n ≤ r.size)
  let sum ← build.add r.position n
  let position ← Guarded.rem sum r.capacity
  let size ← build.sub r.size n
  pure { r with position, size }

def empty : Bare := { r with position := 0, size := 0 }

/-- Copies the cells of a region over `target`, piece by piece. -/
def copyOut (cells : Array UInt8) (region : Region) (target : List UInt8) :
    Guarded (List UInt8) := do
  Guarded.within ⟨0, region.first.length⟩ target.length
  let first ← Guarded.slice cells region.first
  Guarded.sameLength region.first.length first.length
  if region.second.start < region.second.stop then do
    Guarded.within ⟨region.first.length, target.length⟩ target.length
    let second ← Guarded.slice cells region.second
    Guarded.sameLength (target.length - region.first.length) second.length
    pure (first ++ second)
  else pure (first ++ target.drop region.first.length)

/-- Copies the oldest bytes over `target`. -/
def peek (target : List UInt8) : Guarded (Except RingError (List UInt8)) := do
  if r.size < target.length then pure (.error (.insufficientData target.length r.size))
  else do
    let region ← segments build r.position target.length r.capacity
    let bytes ← copyOut r.cells region target
    pure (.ok bytes)

/-- Moves the oldest bytes to `target`. -/
def read (target : List UInt8) : Guarded (Except RingError (List UInt8 × Bare)) := do
  match ← peek build r target with
  | .error error => pure (.error error)
  | .ok bytes => do
    let later ← consume build r target.length
    pure (.ok (bytes, later))

/-- Copies `bytes` to a span of cells. -/
def copyTo (cells : Array UInt8) (s : Span) (bytes : List UInt8) : Guarded (Array UInt8) := do
  Guarded.within s cells.size
  Guarded.sameLength s.length bytes.length
  pure (Cells.store cells s.start bytes)

/-- Copies `bytes` to the cells of a region, piece by piece. -/
def copyIn (cells : Array UInt8) (region : Region) (bytes : List UInt8) :
    Guarded (Array UInt8) := do
  Guarded.within ⟨0, region.first.length⟩ bytes.length
  let cells ← copyTo cells region.first (bytes.take region.first.length)
  if region.second.start < region.second.stop then do
    Guarded.within ⟨region.first.length, bytes.length⟩ bytes.length
    copyTo cells region.second (bytes.drop region.first.length)
  else pure cells

def write (bytes : List UInt8) : Guarded (Except RingError Bare) := do
  let room ← remaining build r
  if room < bytes.length then pure (.error (.bufferFull bytes.length room))
  else do
    let tail ← tail build r
    let region ← segments build tail bytes.length r.capacity
    let cells ← copyIn r.cells region bytes
    let later ← commit build { r with cells } bytes.length
    pure (.ok later)

end Operations

/-! ## On the bare form of a ring -/

section Equations

variable {build : Build} (ring : Ring)

/-- Two numbers of a ring have a sum that is a word. -/
theorem add_lt_wordCount {x y : Nat} (hx : x ≤ ring.capacity) (hy : y ≤ ring.capacity) :
    x + y < wordCount := by
  have hcells : ring.capacity ≤ maxBlock := ring.cells_le
  unfold maxBlock at hcells
  unfold wordCount
  omega

@[simp] theorem capacity_bare : ring.bare.capacity = ring.capacity := rfl

@[simp] theorem size_bare : ring.bare.size = ring.size := rfl

theorem remaining_eq : remaining build ring.bare = pure ring.remaining :=
  Build.sub_of_le ring.size_le_capacity

/-- The two pieces of a run of cells of any array whose size is a word. -/
theorem segments_of_lt {start len capacity : Nat} (hs : start < capacity) (hl : len ≤ capacity)
    (hw : capacity < wordCount) :
    segments build start len capacity = pure (Region.of start len capacity) := by
  have hstop : start + min len (capacity - start) < wordCount := by omega
  unfold segments
  simp only [Build.assert_of hs, Build.assert_of hl, Build.sub_of_le (Nat.le_of_lt hs),
    Build.add_of_lt hstop, Build.sub_of_le (Nat.min_le_left len _), pure_bind]
  rfl

/-- The two pieces of a run of cells of a ring. -/
theorem segments_eq {start len : Nat} (hs : start < ring.capacity) (hl : len ≤ ring.capacity) :
    segments build start len ring.capacity = pure (Region.of start len ring.capacity) :=
  segments_of_lt hs hl (add_lt_wordCount ring (Nat.le_refl _) (Nat.zero_le _))

theorem tail_eq : tail build ring.bare = pure ring.tail := by
  have hsum := add_lt_wordCount ring (Nat.le_of_lt ring.position_lt_capacity) ring.size_le_capacity
  unfold tail
  rw [show build.add ring.bare.position ring.bare.size = pure (ring.position + ring.size) from
    Build.add_of_lt hsum, pure_bind]
  exact Guarded.rem_of_pos ring.capacity_pos

theorem readableRun_eq : readableRun build ring.bare = pure ring.readableRun := by
  have hle := Nat.le_of_lt ring.position_lt_capacity
  unfold readableRun
  rw [show build.sub ring.bare.capacity ring.bare.position = pure (ring.capacity - ring.position)
    from Build.sub_of_le hle, pure_bind]
  rfl

theorem writableRun_eq : writableRun build ring.bare = pure ring.writableRun := by
  have hlt := ring.position_lt_capacity
  have hsize := ring.size_le_capacity
  unfold writableRun Ring.writableRun
  rw [show build.add ring.bare.position ring.bare.size = pure (ring.position + ring.size) from
    Build.add_of_lt (add_lt_wordCount ring (Nat.le_of_lt hlt) hsize), pure_bind, capacity_bare]
  split
  · next h => exact Build.sub_of_le (Nat.le_of_lt h)
  · next h =>
    rw [Build.sub_of_le (Nat.le_of_not_lt h), pure_bind]
    exact Build.sub_of_le (by show _ ≤ ring.position; omega)

theorem readable_eq : readable build ring.bare = pure ring.readable := by
  have hlt := ring.position_lt_capacity
  have hstop : ring.position + ring.readableRun ≤ ring.capacity := by
    unfold Ring.readableRun
    omega
  unfold readable
  have hadd : build.add ring.bare.position ring.readableRun =
      pure (ring.position + ring.readableRun) :=
    Build.add_of_lt (add_lt_wordCount ring (Nat.le_of_lt hlt) (by omega))
  rw [readableRun_eq, pure_bind, hadd, pure_bind]
  exact Guarded.slice_of (Nat.le_add_right _ _) hstop

theorem writable_eq :
    writable build ring.bare = pure ⟨ring.tail, ring.tail + ring.writableRun⟩ := by
  have hlt := ring.tail_lt
  have hstop := Ring.tail_add_writableRun_le ring
  unfold writable
  rw [tail_eq, pure_bind, writableRun_eq, pure_bind,
    Build.add_of_lt (add_lt_wordCount ring (Nat.le_of_lt hlt) (by omega)), pure_bind,
    Guarded.within_of (Nat.le_add_right _ _) hstop, pure_bind]

theorem commit_eq {n : Nat} (h : n ≤ ring.remaining) :
    commit build ring.bare n = pure (ring.commit n h).bare := by
  have hroom : ring.remaining ≤ ring.capacity := Nat.sub_le _ _
  unfold commit
  rw [remaining_eq, pure_bind, Build.assert_of h, pure_bind,
    show build.add ring.bare.size n = pure (ring.size + n) from
      Build.add_of_lt (add_lt_wordCount ring ring.size_le_capacity (by omega)), pure_bind]
  rfl

theorem consume_eq {n : Nat} (h : n ≤ ring.size) :
    consume build ring.bare n = pure (ring.consume n h).bare := by
  have hlt := ring.position_lt_capacity
  have hsize := ring.size_le_capacity
  unfold consume
  rw [show build.assert (n ≤ ring.bare.size) = pure () from Build.assert_of h, pure_bind,
    show build.add ring.bare.position n = pure (ring.position + n) from
      Build.add_of_lt (add_lt_wordCount ring (Nat.le_of_lt hlt) (by omega)), pure_bind,
    capacity_bare, Guarded.rem_of_pos ring.capacity_pos, pure_bind,
    show build.sub ring.bare.size n = pure (ring.size - n) from Build.sub_of_le h, pure_bind]
  rfl

/-- Copying out the pieces of a region reads it in logical order. -/
theorem copyOut_eq (cells : Array UInt8) {start : Nat} (target : List UInt8)
    (hs : start < cells.size) (hl : target.length ≤ cells.size) :
    copyOut cells (Region.of start target.length cells.size) target =
      pure (Cells.slice cells (Region.of start target.length cells.size).first.start
          (Region.of start target.length cells.size).first.stop ++
        Cells.slice cells (Region.of start target.length cells.size).second.start
          (Region.of start target.length cells.size).second.stop) := by
  have hfirst : (Region.of start target.length cells.size).first.stop ≤ cells.size :=
    Region.first_stop_le hs
  have hsecond : (Region.of start target.length cells.size).second.stop ≤ cells.size :=
    Nat.le_trans (Region.second_stop_le hs hl) (Nat.le_of_lt hs)
  simp only [Region.of] at hfirst hsecond ⊢
  unfold copyOut
  simp only [Span.length, Nat.add_sub_cancel_left]
  rw [Guarded.within_of (Nat.zero_le _) (Nat.min_le_left _ _), pure_bind,
    Guarded.slice_of (Nat.le_add_right _ _) hfirst, pure_bind,
    Guarded.sameLength_of (by rw [Cells.length_slice _ hfirst, Nat.add_sub_cancel_left]), pure_bind]
  split
  · rw [Guarded.within_of (Nat.min_le_left _ _) (Nat.le_refl _), pure_bind,
      Guarded.slice_of (Nat.zero_le _) hsecond, pure_bind,
      Guarded.sameLength_of (by rw [Cells.length_slice _ hsecond, Nat.sub_zero]), pure_bind]
  · next hnone =>
    -- Without a second piece the first one covers the target.
    have hzero : target.length - min target.length (cells.size - start) = 0 := by omega
    have hnil : Cells.slice cells 0 0 = [] :=
      List.length_eq_zero_iff.mp (Cells.length_slice cells (Nat.zero_le _))
    rw [hzero, hnil, List.drop_eq_nil_of_le (by omega)]

theorem peek_eq (target : List UInt8) :
    peek build ring.bare target = pure (ring.peek target.length) := by
  have hlt := ring.position_lt_capacity
  unfold peek Ring.peek
  by_cases h : target.length ≤ ring.size
  · have hlen : target.length ≤ ring.capacity := Nat.le_trans h ring.size_le_capacity
    rw [size_bare, if_neg (Nat.not_lt.mpr h), if_pos h,
      show segments build ring.bare.position target.length ring.bare.capacity =
        pure (Region.of ring.position target.length ring.capacity) from segments_eq ring hlt hlen,
      pure_bind, show copyOut ring.bare.cells (Region.of ring.position target.length ring.capacity)
        target = pure (ring.oldest target.length) from copyOut_eq ring.cells target hlt hlen,
      pure_bind]
  · rw [size_bare, if_pos (Nat.lt_of_not_le h), if_neg h]

theorem read_eq (target : List UInt8) :
    read build ring.bare target =
      pure ((ring.read target.length).map fun done => (done.1, done.2.bare)) := by
  unfold read Ring.read
  rw [peek_eq, pure_bind]
  unfold Ring.peek
  by_cases h : target.length ≤ ring.size
  · rw [if_pos h, dif_pos h]
    show (consume build ring.bare target.length >>= _) = _
    rw [consume_eq ring h, pure_bind]
    rfl
  · rw [if_neg h, dif_neg h]
    rfl

theorem copyTo_eq (cells : Array UInt8) {s : Span} {bytes : List UInt8} (h : s.start ≤ s.stop)
    (h' : s.stop ≤ cells.size) (hlen : s.length = bytes.length) :
    copyTo cells s bytes = pure (Cells.store cells s.start bytes) := by
  rw [copyTo, Guarded.within_of h h', pure_bind, Guarded.sameLength_of hlen, pure_bind]

/-- Copying in piece by piece puts the bytes in logical order. -/
theorem copyIn_eq {bytes : List UInt8} (h : bytes.length ≤ ring.capacity) :
    copyIn ring.cells (Region.of ring.tail bytes.length ring.capacity) bytes =
      pure (ring.placed bytes) := by
  have hs := ring.tail_lt
  have hfirst : (Region.of ring.tail bytes.length ring.capacity).first.stop ≤ ring.cells.size :=
    Region.first_stop_le hs
  have hsecond : (Region.of ring.tail bytes.length ring.capacity).second.stop ≤ ring.capacity :=
    Nat.le_trans (Region.second_stop_le hs h) (Nat.le_of_lt hs)
  unfold Ring.placed
  simp only [Region.of] at hfirst hsecond ⊢
  unfold copyIn
  simp only [Span.length, Nat.add_sub_cancel_left]
  rw [Guarded.within_of (Nat.zero_le _) (Nat.min_le_left _ _), pure_bind,
    copyTo_eq ring.cells (Nat.le_add_right _ _) hfirst (by simp [Span.length]), pure_bind]
  split
  · rw [Guarded.within_of (Nat.min_le_left _ _) (Nat.le_refl _), pure_bind]
    exact copyTo_eq _ (Nat.zero_le _) (by rw [Cells.size_store]; exact hsecond)
      (by simp [Span.length])
  · next hnone =>
    rw [List.drop_eq_nil_of_le (by omega)]
    rfl

theorem write_eq (bytes : List UInt8) :
    write build ring.bare bytes = pure ((ring.write bytes).map Ring.bare) := by
  unfold write Ring.write
  rw [remaining_eq, pure_bind]
  by_cases h : bytes.length ≤ ring.remaining
  · have hlen : bytes.length ≤ ring.capacity := Nat.le_trans h (Nat.sub_le _ _)
    -- The ring with its new cells and its old size, which is then committed.
    let placed : Ring :=
      { ring with
        cells := ring.placed bytes
        position_lt := by rw [Ring.size_placed]; exact ring.position_lt
        size_le := by rw [Ring.size_placed]; exact ring.size_le
        cells_le := by rw [Ring.size_placed]; exact ring.cells_le }
    have hroom : bytes.length ≤ placed.remaining := by
      show bytes.length ≤ (ring.placed bytes).size - ring.size
      rw [Ring.size_placed]
      exact h
    rw [if_neg (Nat.not_lt.mpr h), dif_pos h, tail_eq, pure_bind, capacity_bare,
      segments_eq ring ring.tail_lt hlen, pure_bind,
      show copyIn ring.bare.cells (Region.of ring.tail bytes.length ring.capacity) bytes =
        pure (ring.placed bytes) from copyIn_eq ring hlen, pure_bind,
      show commit build ⟨ring.placed bytes, ring.bare.position, ring.bare.size⟩ bytes.length =
        pure (placed.commit bytes.length hroom).bare from commit_eq placed hroom, pure_bind]
    rfl
  · rw [if_pos (Nat.lt_of_not_le h), dif_neg h]
    rfl

end Equations

end Bare

end RingRelay
