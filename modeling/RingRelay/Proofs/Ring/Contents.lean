import RingRelay.Ring.Bulk
/- What the operations on cells and cursors do to the live bytes.

   A ring keeps its bytes at `(position + i) % capacity`, each operation computes its own straight
   pieces, and the theorems here bring both together: the pieces of a region are its cells in
   logical order (`Region.cells_of`), bytes put behind the tail appear at the end of `contents`
   (`contents_commit_scribble`, `contents_of_write`), dropped bytes disappear from its front
   (`contents_consume`), and what is copied out or offered to a writer is a beginning of it
   (`oldest_eq_take`, `readable_eq_take`). -/
namespace RingRelay

/-- A sum of two indices wraps around at most once. -/
theorem mod_eq_of_lt_two_mul {x c : Nat} (h : x < 2 * c) :
    x % c = if x < c then x else x - c := by
  split
  · next hlt => exact Nat.mod_eq_of_lt hlt
  · next hge =>
    rw [Nat.mod_eq_sub_mod (Nat.le_of_not_lt hge)]
    exact Nat.mod_eq_of_lt (by omega)

namespace Region

/-- The cells of a region are the indices that follow one another around the circle. -/
theorem cells_of {start len capacity : Nat} (hs : start < capacity) (hl : len ≤ capacity) :
    (Region.of start len capacity).cells =
      (List.range len).map fun i => (start + i) % capacity := by
  -- The indices up to the end of the array, and those that begin again at cell 0.
  have hlen : len = min len (capacity - start) + (len - min len (capacity - start)) := by omega
  conv => rhs; rw [hlen]
  rw [List.range_add, List.map_append]
  simp only [cells, Region.of, Span.cells, Span.length, List.range'_eq_map_range]
  congr 1
  · rw [Nat.add_sub_cancel_left]
    apply List.map_congr_left
    intro i hi
    rw [List.mem_range] at hi
    exact (Nat.mod_eq_of_lt (by omega)).symm
  · rw [List.map_map, Nat.sub_zero]
    apply List.map_congr_left
    intro i hi
    rw [List.mem_range] at hi
    rw [Function.comp_apply, mod_eq_of_lt_two_mul (by omega), if_neg (by omega)]
    omega

theorem first_stop_le {start len capacity : Nat} (hs : start < capacity) :
    (Region.of start len capacity).first.stop ≤ capacity := by
  simp only [Region.of]
  omega

theorem second_stop_le {start len capacity : Nat} (hs : start < capacity) (hl : len ≤ capacity) :
    (Region.of start len capacity).second.stop ≤ start := by
  simp only [Region.of]
  omega

end Region

namespace Cells

/-- The bytes of a span are the bytes of its cells. -/
theorem slice_eq_map (cells : Array UInt8) {s : Span} (h : s.stop ≤ cells.size) :
    slice cells s.start s.stop = s.cells.map fun i => cells.getD i 0 := by
  apply List.ext_getElem
  · simp [length_slice _ h, Span.cells, Span.length]
  · intro i h₁ h₂
    simp [Span.cells, Span.length] at h₂
    have hi : s.start + i < cells.size := by omega
    simp [slice, Span.cells, List.getElem_range', Array.getD, hi]

/-- The bytes of the two pieces of a region, read in logical order. -/
theorem slices_of_region (cells : Array UInt8) {start len : Nat} (hs : start < cells.size)
    (hl : len ≤ cells.size) :
    let region := Region.of start len cells.size
    slice cells region.first.start region.first.stop ++
        slice cells region.second.start region.second.stop =
      (List.range len).map fun i => cells.getD ((start + i) % cells.size) 0 := by
  intro region
  have h₁ : region.first.stop ≤ cells.size := Region.first_stop_le hs
  have h₂ : region.second.stop ≤ cells.size :=
    Nat.le_trans (Region.second_stop_le hs hl) (Nat.le_of_lt hs)
  rw [slice_eq_map cells h₁, slice_eq_map cells h₂, ← List.map_append]
  change List.map _ region.cells = _
  rw [Region.cells_of hs hl, List.map_map]
  rfl

end Cells

namespace Ring

/-! ## Reading -/

/-- The live bytes after a change of cells that leaves every live cell alone. -/
theorem contents_congr {ring ring' : Ring} (hp : ring'.position = ring.position)
    (hs : ring'.size = ring.size) (hc : ring'.capacity = ring.capacity)
    (h : ∀ i < ring.size, ring'.cells[(ring.position + i) % ring.capacity]? =
      ring.cells[(ring.position + i) % ring.capacity]?) :
    ring'.contents = ring.contents := by
  unfold contents
  rw [hp, hs, hc]
  apply List.map_congr_left
  intro i hi
  simp only [Array.getD_eq_getD_getElem?]
  rw [h i (List.mem_range.mp hi)]

/-- The oldest bytes are copied out in order. -/
theorem oldest_eq_take (ring : Ring) {len : Nat} (h : len ≤ ring.size) :
    ring.oldest len = ring.contents.take len := by
  have hlen : len ≤ ring.cells.size := Nat.le_trans h ring.size_le
  unfold oldest contents
  rw [← List.map_take, List.take_range, Nat.min_eq_left h]
  exact Cells.slices_of_region ring.cells ring.position_lt hlen

/-- A writer is offered a beginning of the live bytes. -/
theorem readable_eq_take (ring : Ring) : ring.readable = ring.contents.take ring.readableRun := by
  have hroom : ring.readableRun ≤ ring.capacity - ring.position := Nat.min_le_right _ _
  have hpos := ring.position_lt_capacity
  rw [← oldest_eq_take ring ring.readableRun_le_size]
  simp only [oldest, Region.of, readable, Nat.min_eq_left hroom, Nat.sub_self]
  simp [Cells.slice]

/-- A ring of three cells whose live bytes go around the end of the array. -/
def aroundEnd : Ring := ⟨#[2, 0, 1], 2, 2, by decide, by decide, by decide⟩

example : aroundEnd.contents = [1, 2] ∧ aroundEnd.readable = [1] := by decide

/-- Nothing lies in a row from `position` on only if there is nothing at all. -/
theorem readableRun_eq_zero_iff (ring : Ring) : ring.readableRun = 0 ↔ ring.size = 0 := by
  have := ring.position_lt_capacity
  unfold readableRun
  omega

/-- No cell is free behind the tail only if no cell is free at all. -/
theorem writableRun_eq_zero_iff (ring : Ring) :
    ring.writableRun = 0 ↔ ring.size = ring.capacity := by
  have := ring.position_lt_capacity
  have := ring.size_le_capacity
  unfold writableRun
  split <;> omega

theorem writableRun_of_size_eq_zero {ring : Ring} (h : ring.size = 0) :
    ring.writableRun = ring.capacity - ring.position := by
  have := ring.position_lt_capacity
  unfold writableRun
  rw [h, Nat.add_zero, if_pos this]

theorem contents_eq_nil_iff (ring : Ring) : ring.contents = [] ↔ ring.size = 0 := by
  rw [← List.length_eq_zero_iff, length_contents]

@[simp] theorem contents_empty (ring : Ring) : ring.empty.contents = [] :=
  (contents_eq_nil_iff _).mpr rfl

/-- A new ring has the cells it was asked for and nothing in them. -/
theorem of_create {memory capacity : Nat} {ring : Ring} (h : create memory capacity = .ok ring) :
    ring.capacity = capacity ∧ ring.position = 0 ∧ ring.size = 0 := by
  unfold create at h
  split at h
  · simp at h
  · split at h
    · simp at h
    · split at h
      · simp at h
      · simp only [Except.ok.injEq] at h
        subst h
        exact ⟨Array.size_replicate, rfl, rfl⟩

theorem contents_of_create {memory capacity : Nat} {ring : Ring}
    (h : create memory capacity = .ok ring) : ring.contents = [] :=
  (contents_eq_nil_iff ring).mpr (of_create h).2.2

/-- Dropped bytes are gone from the front. -/
theorem contents_consume (ring : Ring) (n : Nat) (h : n ≤ ring.size) :
    (ring.consume n h).contents = ring.contents.drop n := by
  apply List.ext_getElem
  · simp
  · intro i h₁ h₂
    simp only [contents, consume, List.getElem_map, List.getElem_range, List.getElem_drop]
    congr 1
    change ((ring.position + n) % ring.capacity + i) % ring.capacity = _
    rw [Nat.mod_add_mod, Nat.add_assoc]

/-! ## The row behind the tail -/

/-- The cells of the row behind the tail follow the live cells around the circle. -/
theorem tail_add_eq (ring : Ring) {j : Nat} (h : j < ring.writableRun) :
    ring.tail + j = (ring.position + (ring.size + j)) % ring.capacity := by
  have := ring.position_lt_capacity
  have := ring.size_le_capacity
  have hrun : j < ring.writableRun := h
  unfold writableRun at hrun
  rw [tail, mod_eq_of_lt_two_mul (by omega), mod_eq_of_lt_two_mul (by split at hrun <;> omega)]
  -- The row ends at the end of the array or at the oldest byte, so its cell `j` wraps around
  -- exactly if the tail does.
  split at hrun <;> split <;> split <;> omega

theorem tail_add_writableRun_le (ring : Ring) : ring.tail + ring.writableRun ≤ ring.capacity := by
  have := ring.position_lt_capacity
  have := ring.size_le_capacity
  unfold writableRun
  rw [tail, mod_eq_of_lt_two_mul (by omega)]
  split <;> omega

@[simp] theorem length_writable (ring : Ring) : ring.writable.length = ring.writableRun := by
  have h : ring.tail + ring.writableRun ≤ ring.cells.size := tail_add_writableRun_le ring
  simp [writable, Cells.length_slice _ h]

/-- No two of the cells around the circle that a ring can hold bytes in are the same. -/
theorem index_ne {position i j capacity : Nat} (hp : position < capacity) (hi : i < j)
    (hj : j < capacity) : (position + i) % capacity ≠ (position + j) % capacity := by
  rw [mod_eq_of_lt_two_mul (by omega), mod_eq_of_lt_two_mul (by omega)]
  split <;> split <;> omega

/-- A live cell is outside the row behind the tail. -/
theorem live_lt_or_le (ring : Ring) {i n : Nat} (hi : i < ring.size) (hn : n ≤ ring.writableRun) :
    (ring.position + i) % ring.capacity < ring.tail ∨
      ring.tail + n ≤ (ring.position + i) % ring.capacity := by
  have := ring.position_lt_capacity
  have := ring.size_le_capacity
  unfold writableRun at hn
  rw [tail, mod_eq_of_lt_two_mul (by omega), mod_eq_of_lt_two_mul (by omega)]
  split at hn <;> split <;> omega

/-- A reader that works in the row behind the tail leaves the live cells alone. -/
theorem getElem?_scribble_of_live (ring : Ring) (edits : List (Option UInt8)) {i : Nat}
    (hi : i < ring.size) :
    (ring.scribble edits).cells[(ring.position + i) % ring.capacity]? =
      ring.cells[(ring.position + i) % ring.capacity]? := by
  have hlen : (edits.take ring.writableRun).length ≤ ring.writableRun := List.length_take_le _ _
  rcases live_lt_or_le ring hi hlen with hlt | hle
  · exact Cells.getElem?_patch_of_lt _ _ hlt
  · exact Cells.getElem?_patch_of_le _ _ hle

/-- What a reader leaves in the row behind the tail is not live. -/
@[simp] theorem contents_scribble (ring : Ring) (edits : List (Option UInt8)) :
    (ring.scribble edits).contents = ring.contents :=
  contents_congr (by simp) (by simp) (by simp) fun _ hi => ring.getElem?_scribble_of_live edits hi

/-- Committing brings in the bytes that stand in the first cells behind the tail. -/
theorem contents_commit (ring : Ring) {n : Nat} (h : n ≤ ring.remaining)
    (hn : n ≤ ring.writableRun) :
    (ring.commit n h).contents =
      ring.contents ++ Cells.slice ring.cells ring.tail (ring.tail + n) := by
  have hend := tail_add_writableRun_le ring
  have hstop : ring.tail + n ≤ ring.cells.size := by
    change ring.tail + n ≤ ring.capacity
    omega
  unfold contents
  simp only [size_commit, position_commit, capacity_commit]
  rw [List.range_add, List.map_append, List.map_map,
    Cells.slice_eq_map ring.cells (s := ⟨ring.tail, ring.tail + n⟩) hstop]
  congr 1
  simp only [Span.cells, Span.length, Nat.add_sub_cancel_left, List.range'_eq_map_range,
    List.map_map]
  apply List.map_congr_left
  intro j hj
  rw [List.mem_range] at hj
  rw [Function.comp_apply, Function.comp_apply, tail_add_eq ring (by omega)]
  rfl

/-! ## Writing -/

/-- Where the cells of a written run are: `j` cells behind the tail around the circle. -/
theorem getElem?_placed_add (ring : Ring) {bytes : List UInt8} (h : bytes.length ≤ ring.remaining)
    {j : Nat} (hj : j < bytes.length) :
    (ring.placed bytes)[(ring.position + (ring.size + j)) % ring.capacity]? = some bytes[j] := by
  have hsize := ring.size_le_capacity
  have htail := ring.tail_lt
  unfold remaining at h
  have hidx : (ring.position + (ring.size + j)) % ring.capacity =
      (ring.tail + j) % ring.capacity := by
    rw [tail, Nat.mod_add_mod, Nat.add_assoc]
  rw [hidx, mod_eq_of_lt_two_mul (by omega)]
  unfold placed
  simp only [Region.of, Span.length, Nat.add_sub_cancel_left, Cells.store]
  split
  · next hlt =>
    -- A cell of the first piece, which the bytes stored at cell 0 do not come up to.
    rw [Cells.getElem?_patch_of_le _ _ (by simp; omega),
      Cells.getElem?_patch_add _ _ (by simp; omega) hlt]
    simp
  · next hge =>
    -- A cell of the second piece, which holds what the first one had no room for.
    have hk : ring.tail + j - ring.capacity = 0 + (j - (ring.capacity - ring.tail)) := by omega
    have hback : ring.capacity - ring.tail + (j - (ring.capacity - ring.tail)) = j := by omega
    have hmin : min bytes.length (ring.capacity - ring.tail) = ring.capacity - ring.tail := by omega
    rw [hk, hmin, Cells.getElem?_patch_add _ _ (by simp; omega)
      (by rw [Cells.size_patch]; change _ < ring.capacity; omega)]
    simp [hback]

/-- A write leaves all other cells alone. -/
theorem getElem?_placed_of_ne (ring : Ring) {bytes : List UInt8} {i : Nat}
    (hi : i < ring.capacity)
    (hne : ∀ j < bytes.length, i ≠ (ring.position + (ring.size + j)) % ring.capacity) :
    (ring.placed bytes)[i]? = ring.cells[i]? := by
  have htail := ring.tail_lt
  have hne' : ∀ j < bytes.length, i ≠ (ring.tail + j) % ring.capacity := by
    intro j hj
    rw [tail, Nat.mod_add_mod, Nat.add_assoc]
    exact hne j hj
  -- A cell in either piece would be the cell of one of the written bytes.
  have hfirst : i < ring.tail ∨ ring.tail + min bytes.length (ring.capacity - ring.tail) ≤ i := by
    by_cases hin : ring.tail ≤ i ∧ i < ring.tail + bytes.length
    · refine absurd ?_ (hne' (i - ring.tail) (by omega))
      rw [Nat.mod_eq_of_lt (by omega)]
      omega
    · omega
  have hsecond : bytes.length - min bytes.length (ring.capacity - ring.tail) ≤ i := by
    by_cases hin : ring.capacity - ring.tail + i < bytes.length
    · refine absurd ?_ (hne' (ring.capacity - ring.tail + i) hin)
      rw [mod_eq_of_lt_two_mul (by omega), if_neg (by omega)]
      omega
    · omega
  unfold placed
  simp only [Region.of, Span.length, Nat.add_sub_cancel_left, Cells.store]
  rw [Cells.getElem?_patch_of_le _ _ (by simp; omega)]
  rcases hfirst with hlt | hle
  · exact Cells.getElem?_patch_of_lt _ _ hlt
  · exact Cells.getElem?_patch_of_le _ _ (by simp; omega)

/-- A write moves no cell and leaves the oldest byte where it is. -/
theorem cursors_of_write {ring ring' : Ring} {bytes : List UInt8}
    (h : ring.write bytes = .ok ring') :
    ring'.capacity = ring.capacity ∧ ring'.position = ring.position := by
  unfold write at h
  split at h
  · simp only [Except.ok.injEq] at h
    subst h
    exact ⟨ring.size_placed bytes, rfl⟩
  · simp at h

/-- A write appends its bytes. -/
theorem contents_of_write {ring ring' : Ring} {bytes : List UInt8}
    (h : ring.write bytes = .ok ring') : ring'.contents = ring.contents ++ bytes := by
  unfold write at h
  split at h
  · next hle =>
    simp only [Except.ok.injEq] at h
    subst h
    have hsize := ring.size_le_capacity
    have hroom : bytes.length ≤ ring.capacity - ring.size := hle
    change (List.range (ring.size + bytes.length)).map
      (fun i => (ring.placed bytes).getD ((ring.position + i) % (ring.placed bytes).size) 0) = _
    rw [size_placed, List.range_add, List.map_append, List.map_map]
    -- The live bytes stay where they are, and the written ones follow them around the circle.
    congr 1
    · apply List.map_congr_left
      intro i hi
      rw [List.mem_range] at hi
      simp only [Array.getD_eq_getD_getElem?]
      rw [getElem?_placed_of_ne ring (Nat.mod_lt _ ring.capacity_pos)]
      intro j hj
      exact index_ne ring.position_lt_capacity (by omega) (by omega)
    · apply List.ext_getElem
      · simp
      · intro j h₁ h₂
        simp only [List.getElem_map, List.getElem_range, Function.comp_apply,
          Array.getD_eq_getD_getElem?]
        rw [getElem?_placed_add ring hle h₂]
        rfl
  · simp at h

end Ring

end RingRelay
