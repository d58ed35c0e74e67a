import Mathlib.Data.List.Rotate
import RingRelay.Proofs.Guarded.Bare
import RingRelay.Proofs.Ring.TwoWrites
/- The pieces of a run of cells.

   A run of cells around the circle is at most two ranges of the array, and the ring knows the first
   of them in two ways: `Region.of` cuts a run at the end of the array, and `readableRun` and
   `writableRun` work out how far the live and the free cells go, each by a formula of its own. The
   theorems here say that all of this is one picture. The ranges that `Region.of` gives are disjoint
   and enumerate the run (`Region.covers_of`). A run that is cut in two is two runs
   (`Region.cells_of_add`), so the live cells and behind them the free ones are the whole circle from
   `position` on (`Ring.live_append_free`), and all that `commit` and `consume` do is to move the two
   borders between them (`Ring.cells_commit`, `Ring.cells_consume`). A running program computes these
   pieces and no others, in whatever alignment (`pieces_geometry`). -/
namespace RingRelay

namespace Span

theorem mem_cells {s : Span} {c : Nat} : c ∈ s.cells ↔ s.start ≤ c ∧ c < s.stop := by
  unfold cells length
  rw [List.mem_range'_1]
  omega

theorem cells_ne_nil_iff {s : Span} : s.cells ≠ [] ↔ s.start < s.stop := by
  simp only [cells, length, ne_eq, List.range'_eq_nil_iff]
  omega

end Span

namespace Region

/-- The region is the run of `len` cells from `start` on, around a circle of `capacity` cells: two
    ranges of the array without a cell in common, which one after the other have the cells of the
    run in their order. There is a second one only if the run goes beyond the end of the array. -/
structure Covers (region : Region) (start len capacity : Nat) : Prop where
  first_within : region.first.start ≤ region.first.stop ∧ region.first.stop ≤ capacity
  second_within : region.second.start ≤ region.second.stop ∧ region.second.stop ≤ capacity
  disjoint : region.first.cells.Disjoint region.second.cells
  cells_eq : region.cells = (List.range len).map fun i => (start + i) % capacity
  second_ne_nil_iff : region.second.cells ≠ [] ↔ capacity < start + len

/-- A region is the run that it was made for. -/
theorem covers_of {start len capacity : Nat} (hs : start < capacity) (hl : len ≤ capacity) :
    (Region.of start len capacity).Covers start len capacity where
  first_within := ⟨Nat.le_add_right _ _, first_stop_le hs⟩
  second_within := ⟨Nat.zero_le _, Nat.le_trans (second_stop_le hs hl) (Nat.le_of_lt hs)⟩
  disjoint := by
    -- The second range ends where the run began, at the latest.
    intro c hfirst hsecond
    have hle := second_stop_le hs hl
    have hstart := (Span.mem_cells.mp hfirst).1
    have hstop := (Span.mem_cells.mp hsecond).2
    exact absurd (Nat.lt_of_lt_of_le hstop hle) (Nat.not_lt.mpr hstart)
  cells_eq := cells_of hs hl
  second_ne_nil_iff := by
    rw [Span.cells_ne_nil_iff]
    simp only [Region.of]
    omega

theorem length_cells_of {start len capacity : Nat} (hs : start < capacity) (hl : len ≤ capacity) :
    (Region.of start len capacity).cells.length = len := by
  rw [cells_of hs hl, List.length_map, List.length_range]

/-- A run that is cut in two is a run and another one behind it. -/
theorem cells_of_add {start len more capacity : Nat} (hs : start < capacity)
    (hl : len + more ≤ capacity) :
    (Region.of start (len + more) capacity).cells =
      (Region.of start len capacity).cells ++
        (Region.of ((start + len) % capacity) more capacity).cells := by
  have hpos : 0 < capacity := Nat.lt_of_le_of_lt (Nat.zero_le _) hs
  rw [cells_of hs hl, cells_of hs (by omega), cells_of (Nat.mod_lt _ hpos) (by omega),
    List.range_add, List.map_append, List.map_map]
  congr 1
  apply List.map_congr_left
  intro i _
  rw [Function.comp_apply, Nat.mod_add_mod, Nat.add_assoc]

section Cut

variable {start len capacity n : Nat} (hs : start < capacity) (hl : len ≤ capacity) (hn : n ≤ len)
include hs hl hn

theorem cells_of_cut :
    (Region.of start len capacity).cells =
      (Region.of start n capacity).cells ++
        (Region.of ((start + n) % capacity) (len - n) capacity).cells := by
  rw [← cells_of_add hs (by omega), Nat.add_sub_of_le hn]

theorem take_cells_of :
    (Region.of start len capacity).cells.take n = (Region.of start n capacity).cells := by
  rw [cells_of_cut hs hl hn, List.take_left' (length_cells_of hs (Nat.le_trans hn hl))]

theorem drop_cells_of :
    (Region.of start len capacity).cells.drop n =
      (Region.of ((start + n) % capacity) (len - n) capacity).cells := by
  rw [cells_of_cut hs hl hn, List.drop_left' (length_cells_of hs (Nat.le_trans hn hl))]

end Cut

/-- As many cells as the circle has are the circle, turned to where they start. -/
theorem cells_of_capacity {start capacity : Nat} (hs : start < capacity) :
    (Region.of start capacity capacity).cells = (List.range capacity).rotate start := by
  rw [cells_of hs (Nat.le_refl _)]
  apply List.ext_getElem
  · simp
  · intro i _ _
    simp [List.getElem_rotate, Nat.add_comm]

end Region

namespace Ring

/-! ## Live and free cells -/

theorem size_add_remaining (ring : Ring) : ring.size + ring.remaining = ring.capacity :=
  Nat.add_sub_of_le ring.size_le_capacity

/-- The live cells and behind them the free ones are the whole circle from `position` on. -/
theorem live_append_free (ring : Ring) :
    ring.live.cells ++ ring.free.cells = (List.range ring.capacity).rotate ring.position := by
  calc ring.live.cells ++ ring.free.cells
      = (Region.of ring.position (ring.size + ring.remaining) ring.capacity).cells :=
        (Region.cells_of_add ring.position_lt_capacity
          (Nat.le_of_eq ring.size_add_remaining)).symm
    _ = (List.range ring.capacity).rotate ring.position := by
        rw [size_add_remaining, Region.cells_of_capacity ring.position_lt_capacity]

example : aroundEnd.live.cells = [2, 0] ∧ aroundEnd.free.cells = [1] := by decide

theorem tail_commit (ring : Ring) {n : Nat} (h : n ≤ ring.remaining) :
    (ring.commit n h).tail = (ring.tail + n) % ring.capacity := by
  simp only [tail, position_commit, size_commit, capacity_commit]
  rw [Nat.mod_add_mod, Nat.add_assoc]

theorem tail_consume (ring : Ring) {n : Nat} (h : n ≤ ring.size) :
    (ring.consume n h).tail = ring.tail := by
  simp only [tail, size_consume, capacity_consume]
  show ((ring.position + n) % ring.capacity + (ring.size - n)) % ring.capacity = _
  rw [Nat.mod_add_mod, Nat.add_assoc, Nat.add_sub_of_le h]

theorem remaining_consume (ring : Ring) {n : Nat} (h : n ≤ ring.size) :
    (ring.consume n h).remaining = ring.remaining + n := by
  have := ring.size_le_capacity
  simp only [remaining, size_consume, capacity_consume]
  omega

/-- The circle closes: behind the free cells is the cell of the oldest byte. -/
theorem tail_add_remaining (ring : Ring) :
    (ring.tail + ring.remaining) % ring.capacity = ring.position := by
  rw [tail, Nat.mod_add_mod, Nat.add_assoc, size_add_remaining, Nat.add_mod_right,
    Nat.mod_eq_of_lt ring.position_lt_capacity]

/-- A commit moves the border behind the live cells: it makes the first `n` free cells live. -/
theorem cells_commit (ring : Ring) {n : Nat} (h : n ≤ ring.remaining) :
    (ring.commit n h).live.cells = ring.live.cells ++ ring.free.cells.take n ∧
      (ring.commit n h).free.cells = ring.free.cells.drop n := by
  have hsum := ring.size_add_remaining
  have hlive : ring.size + n ≤ ring.capacity := by omega
  have hroom : ring.remaining ≤ ring.capacity := Nat.sub_le _ _
  constructor
  · rw [free, Region.take_cells_of ring.tail_lt hroom h]
    exact Region.cells_of_add ring.position_lt_capacity hlive
  · simp only [free, tail_commit, remaining_commit, capacity_commit]
    rw [Region.drop_cells_of ring.tail_lt hroom h]

/-- A consume moves the border before the live cells: it puts the first `n` of them behind the free
    ones. -/
theorem cells_consume (ring : Ring) {n : Nat} (h : n ≤ ring.size) :
    (ring.consume n h).live.cells = ring.live.cells.drop n ∧
      (ring.consume n h).free.cells = ring.free.cells ++ ring.live.cells.take n := by
  have hsum := ring.size_add_remaining
  have hsize := ring.size_le_capacity
  constructor
  · rw [live, live, Region.drop_cells_of ring.position_lt_capacity hsize h]
    rfl
  · simp only [free, tail_consume, remaining_consume, capacity_consume]
    rw [live, Region.take_cells_of ring.position_lt_capacity hsize h,
      Region.cells_of_add ring.tail_lt (by omega), tail_add_remaining]

/-- The two rows that a ring works out are the first pieces of its live and of its free cells. There
    is none only where there is no such cell, and all four pieces are the cells of the ring, each
    cell once. -/
structure Divided (ring : Ring) : Prop where
  readableRun_eq : ring.readableRun = ring.live.first.length
  writableRun_eq : ring.writableRun = ring.free.first.length
  no_readableRun_iff : ring.readableRun = 0 ↔ ring.isEmpty = true
  no_writableRun_iff : ring.writableRun = 0 ↔ ring.isFull = true
  circle : ring.live.cells ++ ring.free.cells = (List.range ring.capacity).rotate ring.position
  partition : (ring.live.cells ++ ring.free.cells).Perm (List.range ring.capacity)

theorem divided (ring : Ring) : ring.Divided where
  readableRun_eq := ring.length_live_first.symm
  writableRun_eq := ring.length_free_first.symm
  no_readableRun_iff := by simp [readableRun_eq_zero_iff, isEmpty]
  no_writableRun_iff := by simp [writableRun_eq_zero_iff, isFull]
  circle := ring.live_append_free
  partition := by
    rw [live_append_free]
    exact List.rotate_perm _ _

/-! ## As a running program computes them -/

/-- What a build computes for this ring are its pieces: cut at the end of the array, counted by a
    formula of their own, and handed to an endpoint. -/
structure Measured (ring : Ring) (build : Build) : Prop where
  live : Bare.segments build ring.position ring.size ring.capacity = pure ring.live
  free : (do
    let tail ← Bare.tail build ring.bare
    let room ← Bare.remaining build ring.bare
    Bare.segments build tail room ring.capacity) = pure ring.free
  readableRun : Bare.readableRun build ring.bare = pure ring.live.first.length
  writableRun : Bare.writableRun build ring.bare = pure ring.free.first.length
  readable : Bare.readable build ring.bare = pure (ring.bytesAt ring.live.first)
  writable : Bare.writable build ring.bare = pure ring.free.first

theorem measured (ring : Ring) (build : Build) : ring.Measured build where
  live := Bare.segments_eq ring ring.position_lt_capacity ring.size_le_capacity
  free := by
    rw [Bare.tail_eq, pure_bind, Bare.remaining_eq, pure_bind]
    exact Bare.segments_eq ring ring.tail_lt (Nat.sub_le _ _)
  readableRun := by rw [Bare.readableRun_eq, length_live_first]
  writableRun := by rw [Bare.writableRun_eq, length_free_first]
  readable := Bare.readable_eq ring
  writable := by rw [Bare.writable_eq, free_first_eq]

/-- A full ring of three cells whose oldest byte is in the last of them. -/
def fullAround : Ring := ⟨#[2, 3, 1], 2, 3, by decide, by decide, by decide⟩

end Ring

/-- A run of cells, cut at the end of the array by a program, is two disjoint ranges of the array
    that have its cells in order. For every ring the rows that are worked out are the first of these
    ranges, and the ranges of its live and of its free cells share out the array. -/
theorem pieces_geometry (build : Build) :
    (∀ start len capacity : Nat, start < capacity → len ≤ capacity →
      (Region.of start len capacity).Covers start len capacity ∧
        (capacity < wordCount →
          Bare.segments build start len capacity = pure (Region.of start len capacity))) ∧
      ∀ ring : Ring, ring.Divided ∧ ring.Measured build := by
  constructor
  · intro start len capacity hs hl
    exact ⟨Region.covers_of hs hl, Bare.segments_of_lt hs hl⟩
  · intro ring
    exact ⟨ring.divided, ring.measured build⟩

/-- Five cells from the last but one of eight go around the end, and a full ring has no free row
    wherever its oldest byte is. -/
theorem pieces_geometry_fullAround :
    6 < 8 ∧ 5 ≤ 8 ∧ 8 < wordCount ∧ (Region.of 6 5 8).cells = [6, 7, 0, 1, 2] ∧
      (Region.of 6 5 8).second.cells ≠ [] ∧
      Bare.segments .checked 6 5 8 = pure ⟨⟨6, 8⟩, ⟨0, 3⟩⟩ ∧
      Bare.readableRun .checked Ring.fullAround.bare = pure 1 ∧
      Bare.writableRun .checked Ring.fullAround.bare = pure 0 ∧
      (Ring.fullAround.live.cells ++ Ring.fullAround.free.cells).Perm [0, 1, 2] := by
  have hword : 8 < wordCount := by decide
  obtain ⟨hregion, hring⟩ := pieces_geometry .checked
  obtain ⟨hcovers, hsegments⟩ := hregion 6 5 8 (by decide) (by decide)
  obtain ⟨hdivided, hmeasured⟩ := hring Ring.fullAround
  exact ⟨by decide, by decide, hword, hcovers.cells_eq, hcovers.second_ne_nil_iff.mpr (by decide),
    hsegments hword, hmeasured.readableRun, hmeasured.writableRun, hdivided.partition⟩

end RingRelay
