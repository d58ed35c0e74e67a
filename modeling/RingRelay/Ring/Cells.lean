/- Overwriting consecutive cells of a byte array.

   `patch cells start edits` goes through the cells from `start` on; an edit `some b` puts `b` into
   its cell and `none` leaves the cell alone. Edits past the end of the array are dropped, so the
   array keeps its size (`size_patch`). -/
namespace RingRelay.Cells

def patch (cells : Array UInt8) (start : Nat) : List (Option UInt8) → Array UInt8
  | [] => cells
  | some b :: edits => patch (cells.setIfInBounds start b) (start + 1) edits
  | none :: edits => patch cells (start + 1) edits

@[simp] theorem size_patch (cells : Array UInt8) (start : Nat) (edits : List (Option UInt8)) :
    (patch cells start edits).size = cells.size := by
  induction edits generalizing cells start with
  | nil => rfl
  | cons edit edits ih => cases edit <;> simp [patch, ih]

/-- A cell before the first edited one keeps its byte. -/
theorem getElem?_patch_of_lt (cells : Array UInt8) {start j : Nat} (edits : List (Option UInt8))
    (h : j < start) : (patch cells start edits)[j]? = cells[j]? := by
  induction edits generalizing cells start with
  | nil => rfl
  | cons edit edits ih =>
    cases edit with
    | none => simp [patch, ih cells (by omega : j < start + 1)]
    | some b =>
      rw [patch, ih _ (by omega : j < start + 1), Array.getElem?_setIfInBounds_ne (by omega)]

/-- A cell behind the last edited one keeps its byte. -/
theorem getElem?_patch_of_le (cells : Array UInt8) {start j : Nat} (edits : List (Option UInt8))
    (h : start + edits.length ≤ j) : (patch cells start edits)[j]? = cells[j]? := by
  induction edits generalizing cells start with
  | nil => rfl
  | cons edit edits ih =>
    have h' : start + 1 + edits.length ≤ j := by simp at h; omega
    cases edit with
    | none => simp [patch, ih cells h']
    | some b =>
      rw [patch, ih _ h', Array.getElem?_setIfInBounds_ne (by simp at h; omega)]

/-- The cell of edit number `i` holds the byte of that edit, or its old byte if there is none. -/
theorem getElem?_patch_add (cells : Array UInt8) {start i : Nat} (edits : List (Option UInt8))
    (hi : i < edits.length) (hs : start + i < cells.size) :
    (patch cells start edits)[start + i]? = edits[i].or cells[start + i]? := by
  induction edits generalizing cells start i with
  | nil => simp at hi
  | cons edit edits ih =>
    cases i with
    | zero =>
      cases edit with
      | none => simp [patch, getElem?_patch_of_lt cells edits (Nat.lt_succ_self start)]
      | some b =>
        rw [Nat.add_zero] at hs ⊢
        rw [patch, getElem?_patch_of_lt _ edits (Nat.lt_succ_self start)]
        simp [hs]
    | succ i =>
      have hi' : i < edits.length := by simpa using hi
      have hsum : start + (i + 1) = start + 1 + i := by omega
      cases edit with
      | none =>
        rw [hsum] at hs ⊢
        simp [patch, ih cells hi' hs]
      | some b =>
        rw [hsum] at hs ⊢
        rw [patch, ih (cells.setIfInBounds start b) hi' (by simpa using hs),
          Array.getElem?_setIfInBounds_ne (by omega)]
        simp

/-- The bytes from `start` on replaced by `bytes`. -/
def store (cells : Array UInt8) (start : Nat) (bytes : List UInt8) : Array UInt8 :=
  patch cells start (bytes.map some)

@[simp] theorem size_store (cells : Array UInt8) (start : Nat) (bytes : List UInt8) :
    (store cells start bytes).size = cells.size := by
  simp [store]

/-- The bytes of a span of cells, in order. -/
def slice (cells : Array UInt8) (start stop : Nat) : List UInt8 :=
  (cells.extract start stop).toList

theorem length_slice (cells : Array UInt8) {start stop : Nat} (h : stop ≤ cells.size) :
    (slice cells start stop).length = stop - start := by
  simp [slice]
  omega

end RingRelay.Cells
