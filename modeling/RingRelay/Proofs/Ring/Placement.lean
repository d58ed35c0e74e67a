import RingRelay.Proofs.Ring.Contents
/- Where bytes are put.

   `contents` says which bytes are live and not in which cells they are. `Appends` says it cell by
   cell: the bytes are in the cells that follow the newest byte around the circle, and every other
   cell is as it was. That determines the ring (`Appends.unique`), and it adds up
   (`Appends.trans`), so all that puts the same bytes in comes to the same ring, in whatever pieces
   it does so. -/
namespace RingRelay.Ring

/-- A ring is its cells and its two cursors. -/
theorem eq_of {ring ring' : Ring} (hcells : ring.cells = ring'.cells)
    (hposition : ring.position = ring'.position) (hsize : ring.size = ring'.size) :
    ring = ring' := by
  cases ring
  cases ring'
  subst hcells hposition hsize
  rfl

/-- Bytes dropped in two parts are dropped together. -/
theorem consume_consume (ring : Ring) {m n : Nat} (h : m ≤ ring.size) (h' : n ≤ ring.size - m)
    (hsum : m + n ≤ ring.size) :
    (ring.consume m h).consume n h' = ring.consume (m + n) hsum := by
  refine eq_of rfl ?_ ?_
  · show ((ring.position + m) % ring.capacity + n) % ring.capacity = _
    rw [Nat.mod_add_mod, Nat.add_assoc]
    rfl
  · show ring.size - m - n = ring.size - (m + n)
    omega

theorem consume_zero (ring : Ring) : ring.consume 0 (Nat.zero_le _) = ring :=
  eq_of rfl (Nat.mod_eq_of_lt ring.position_lt_capacity) rfl

/-- `later` is `ring` with `bytes` in the cells behind its newest byte, and with no other change. -/
structure Appends (ring : Ring) (bytes : List UInt8) (later : Ring) : Prop where
  capacity_eq : later.capacity = ring.capacity
  position_eq : later.position = ring.position
  size_eq : later.size = ring.size + bytes.length
  written : ∀ i (h : i < bytes.length),
    later.cells[(ring.position + (ring.size + i)) % ring.capacity]? = some bytes[i]
  kept : ∀ c < ring.capacity,
    (∀ i < bytes.length, c ≠ (ring.position + (ring.size + i)) % ring.capacity) →
      later.cells[c]? = ring.cells[c]?

namespace Appends

variable {ring middle later later' : Ring} {bytes more : List UInt8}

theorem refl (ring : Ring) : ring.Appends [] ring where
  capacity_eq := rfl
  position_eq := rfl
  size_eq := rfl
  written _ h := absurd h (Nat.not_lt_zero _)
  kept _ _ _ := rfl

theorem size_le (h : ring.Appends bytes later) : ring.size + bytes.length ≤ ring.capacity := by
  rw [← h.size_eq, ← h.capacity_eq]
  exact later.size_le_capacity

/-- The cells of the live bytes are among those that are kept. -/
theorem live (h : ring.Appends bytes later) {i : Nat} (hi : i < ring.size) :
    later.cells[(ring.position + i) % ring.capacity]? =
      ring.cells[(ring.position + i) % ring.capacity]? := by
  have hle := h.size_le
  apply h.kept _ (Nat.mod_lt _ ring.capacity_pos)
  intro j hj
  exact index_ne ring.position_lt_capacity (by omega) (by omega)

theorem trans (h : ring.Appends bytes middle) (h' : middle.Appends more later) :
    ring.Appends (bytes ++ more) later := by
  have hle := h'.size_le
  -- The cells behind the newest byte of the ring in the middle, as cells of the first one.
  have hcell : ∀ i, (middle.position + (middle.size + i)) % middle.capacity =
      (ring.position + (ring.size + (bytes.length + i))) % ring.capacity := by
    intro i
    rw [h.position_eq, h.size_eq, h.capacity_eq, Nat.add_assoc ring.size]
  rw [h.size_eq, h.capacity_eq] at hle
  refine ⟨h'.capacity_eq.trans h.capacity_eq, h'.position_eq.trans h.position_eq, ?_, ?_, ?_⟩
  · rw [h'.size_eq, h.size_eq, List.length_append, Nat.add_assoc]
  · intro i hi
    rw [List.length_append] at hi
    by_cases hfirst : i < bytes.length
    · -- A byte of the first part, which the second one leaves alone.
      rw [List.getElem_append_left hfirst, ← h.written i hfirst]
      apply h'.kept
      · rw [h.capacity_eq]
        exact Nat.mod_lt _ ring.capacity_pos
      intro j hj
      rw [hcell]
      exact index_ne ring.position_lt_capacity (by omega) (by omega)
    · have hsecond : i - bytes.length < more.length := by omega
      rw [List.getElem_append_right (by omega), ← h'.written _ hsecond, hcell,
        Nat.add_sub_of_le (Nat.le_of_not_lt hfirst)]
  · intro c hc hne
    have hkept : middle.cells[c]? = ring.cells[c]? := by
      apply h.kept c hc
      intro i hi
      exact hne i (by rw [List.length_append]; omega)
    rw [← hkept]
    apply h'.kept c (h.capacity_eq ▸ hc)
    intro i hi
    rw [hcell]
    exact hne _ (by rw [List.length_append]; omega)

/-- There is one ring only that a ring with these bytes behind it can be. -/
theorem unique (h : ring.Appends bytes later) (h' : ring.Appends bytes later') :
    later = later' := by
  refine eq_of ?_ (h.position_eq.trans h'.position_eq.symm) (h.size_eq.trans h'.size_eq.symm)
  apply Array.ext_getElem?
  intro c
  by_cases hc : c < ring.capacity
  · by_cases hwritten : ∃ i, ∃ _ : i < bytes.length,
        c = (ring.position + (ring.size + i)) % ring.capacity
    · obtain ⟨i, hi, rfl⟩ := hwritten
      rw [h.written i hi, h'.written i hi]
    · have hne : ∀ i < bytes.length, c ≠ (ring.position + (ring.size + i)) % ring.capacity :=
        fun i hi heq => hwritten ⟨i, hi, heq⟩
      rw [h.kept c hc hne, h'.kept c hc hne]
  · have hsize : later.cells.size = ring.capacity := h.capacity_eq
    have hsize' : later'.cells.size = ring.capacity := h'.capacity_eq
    rw [Array.getElem?_eq_none (by omega), Array.getElem?_eq_none (by omega)]

end Appends

/-- A write that fits puts its bytes behind the newest one. -/
theorem appends_write {ring : Ring} {bytes : List UInt8} (h : bytes.length ≤ ring.remaining) :
    ∃ later, ring.write bytes = .ok later ∧ ring.Appends bytes later := by
  unfold write
  rw [dif_pos h]
  refine ⟨_, rfl, ring.size_placed bytes, rfl, rfl, ?_, ?_⟩
  · intro i hi
    exact getElem?_placed_add ring h hi
  · intro c hc hne
    exact getElem?_placed_of_ne ring hc hne

/-- The oldest bytes are those in the cells from `position` on around the circle. -/
theorem getElem?_oldest (ring : Ring) {len i : Nat} (h : len ≤ ring.size) (hi : i < len) :
    (ring.oldest len)[i]? = ring.cells[(ring.position + i) % ring.capacity]? := by
  have hcell : (ring.position + i) % ring.capacity < ring.cells.size :=
    Nat.mod_lt _ ring.capacity_pos
  rw [oldest_eq_take ring h, List.getElem?_take_of_lt hi, contents, List.getElem?_map,
    List.getElem?_range (by omega), Option.map_some, Array.getD_eq_getD_getElem?,
    Array.getElem?_eq_getElem hcell]
  rfl

@[simp] theorem length_oldest (ring : Ring) {len : Nat} (h : len ≤ ring.size) :
    (ring.oldest len).length = len := by
  rw [oldest_eq_take ring h, List.length_take, length_contents, Nat.min_eq_left h]

/-- The bytes are those of the first `len` cells from `position` on around the circle. -/
structure OldestCells (ring : Ring) (len : Nat) (bytes : List UInt8) : Prop where
  length_eq : bytes.length = len
  cells_eq : ∀ i < len, bytes[i]? = ring.cells[(ring.position + i) % ring.capacity]?

theorem oldestCells_oldest (ring : Ring) {len : Nat} (h : len ≤ ring.size) :
    ring.OldestCells len (ring.oldest len) :=
  ⟨ring.length_oldest h, fun _ hi => ring.getElem?_oldest h hi⟩

end RingRelay.Ring
