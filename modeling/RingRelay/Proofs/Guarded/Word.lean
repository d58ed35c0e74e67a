import Mathlib.Data.PFun
import RingRelay.Ring.Cells
import RingRelay.Ring.Region
/- Computations that may break down.

   A running program knows no bounds beside its numbers. It adds and subtracts words of 64 bits,
   cuts slices out of arrays, copies one slice to another and asserts what it takes for granted, and
   each of these can break it down. `Guarded` computations do it the same way: `Fault` says what
   went wrong, and a loop that does not end has no result at all (`Guarded.loop`).

   A build that checks its arithmetic stops at an overflow and at an assertion that does not hold. A
   plain build goes on, with a number that is wrong. -/
namespace RingRelay

/-- Why a program broke down. -/
inductive Fault
  /-- The result of an addition or subtraction is not a word. -/
  | overflow
  | divisionByZero
  /-- A slice that does not lie in its array. -/
  | outOfRange
  /-- A copy between slices that are not of the same length. -/
  | lengthMismatch
  | assertion

/-- How a program was built. -/
inductive Build
  | checked
  | plain

/-- A computation that gives a result, breaks down or goes on for ever. -/
abbrev Guarded (α : Type) := ExceptT Fault Part α

/-- The number of words. -/
def wordCount : Nat := 0x10000000000000000

namespace Build

variable (build : Build)

def add (x y : Nat) : Guarded Nat :=
  if x + y < wordCount then pure (x + y)
  else match build with
    | checked => throw .overflow
    | plain => pure (x + y - wordCount)

def sub (x y : Nat) : Guarded Nat :=
  if y ≤ x then pure (x - y)
  else match build with
    | checked => throw .overflow
    | plain => pure (x + wordCount - y)

/-- An assertion, which a plain build leaves out. -/
def assert (p : Prop) [Decidable p] : Guarded Unit :=
  match build with
  | checked => if p then pure () else throw .assertion
  | plain => pure ()

variable {build}

theorem add_of_lt {x y : Nat} (h : x + y < wordCount) : build.add x y = pure (x + y) :=
  if_pos h

theorem sub_of_le {x y : Nat} (h : y ≤ x) : build.sub x y = pure (x - y) :=
  if_pos h

theorem assert_of {p : Prop} [Decidable p] (h : p) : build.assert p = pure () := by
  cases build with
  | checked => exact if_pos h
  | plain => rfl

end Build

namespace Guarded

def rem (x y : Nat) : Guarded Nat :=
  if y = 0 then throw .divisionByZero else pure (x % y)

/-- A span must lie in the array that it is cut out of. -/
def within (s : Span) (size : Nat) : Guarded Unit :=
  if s.start ≤ s.stop ∧ s.stop ≤ size then pure () else throw .outOfRange

/-- What is copied must be as long as what it is copied to. -/
def sameLength (target source : Nat) : Guarded Unit :=
  if target = source then pure () else throw .lengthMismatch

def slice (cells : Array UInt8) (s : Span) : Guarded (List UInt8) := do
  within s cells.size
  pure (Cells.slice cells s.start s.stop)

/-- Makes one pass after another, each with what the pass before it left, until one comes to a
    result or breaks down. -/
def loop {σ α : Type} (pass : σ → Guarded (α ⊕ σ)) : σ → Guarded α :=
  PFun.fix fun s => (pass s).run.map fun
    | .ok (.inl result) => .inl (.ok result)
    | .ok (.inr next) => .inr next
    | .error fault => .inl (.error fault)

theorem rem_of_pos {x y : Nat} (h : 0 < y) : rem x y = pure (x % y) :=
  if_neg (Nat.ne_of_gt h)

theorem within_of {s : Span} {size : Nat} (h : s.start ≤ s.stop) (h' : s.stop ≤ size) :
    within s size = pure () :=
  if_pos ⟨h, h'⟩

theorem sameLength_of {target source : Nat} (h : target = source) :
    sameLength target source = pure () :=
  if_pos h

theorem slice_of {cells : Array UInt8} {s : Span} (h : s.start ≤ s.stop)
    (h' : s.stop ≤ cells.size) : slice cells s = pure (Cells.slice cells s.start s.stop) := by
  rw [slice, within_of h h', pure_bind]

section Loop

variable {σ α : Type} {pass : σ → Guarded (α ⊕ σ)} {s : σ}

theorem loop_of_result {result : α} (h : pass s = pure (.inl result)) :
    loop pass s = pure result := by
  refine Part.eq_some_iff.mpr (PFun.fix_stop ?_)
  rw [h]
  exact Part.mem_some _

theorem loop_of_next {next : σ} (h : pass s = pure (.inr next)) :
    loop pass s = loop pass next := by
  refine PFun.fix_fwd_eq ?_
  rw [h]
  exact Part.mem_some _

end Loop

end Guarded

end RingRelay
