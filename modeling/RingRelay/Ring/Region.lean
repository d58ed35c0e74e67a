/- The cells of a circular array that a run of consecutive bytes occupies.

   A run that starts at some cell and crosses the end of the array goes on at cell 0, so it is at
   most two straight pieces: `Region.of start len capacity` gives both. The second piece is empty
   unless the run crosses the end. -/
namespace RingRelay

/-- The cells `start, start + 1, …, stop - 1`. -/
structure Span where
  start : Nat
  stop : Nat
  deriving DecidableEq, Repr

namespace Span

def length (s : Span) : Nat := s.stop - s.start

/-- The cells of the span, in order. -/
def cells (s : Span) : List Nat := List.range' s.start s.length

end Span

/-- A run of cells in logical order: first the cells of `first`, then those of `second`. -/
structure Region where
  first : Span
  second : Span
  deriving DecidableEq, Repr

namespace Region

/-- The `len` cells of a circular array of `capacity` cells that follow one another from `start`.
    It is meant for `start < capacity` and `len ≤ capacity`. -/
def of (start len capacity : Nat) : Region :=
  let head := min len (capacity - start)
  ⟨⟨start, start + head⟩, ⟨0, len - head⟩⟩

/-- The cells of the region in logical order. -/
def cells (r : Region) : List Nat := r.first.cells ++ r.second.cells

end Region

end RingRelay
