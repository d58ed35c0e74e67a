import RingRelay.Proofs.Endpoint.Raw
import RingRelay.Proofs.Guarded.Bare
import RingRelay.Proofs.Ring.Flow
/- Transfers of a running program.

   Both loops are written once, for endpoints of which nothing is known; `Ring.fill` and
   `Ring.fillWaiting` answer to the same loop, with different readers, and so do the two drains. A
   pass of a loop is one poll. The loop remembers each call with the ring as it was behind it, so
   that not only what a transfer comes to is seen but every ring on the way (`Traces`).

   On the bare form of a ring a transfer does not break down and comes to an end, and there is
   nothing in it that the transfer of the ring has not (`Bare.Transfer.Mirrors`). -/
namespace RingRelay

namespace Bare

/-- The effect of one answered call. -/
structure Absorbed where
  ring : Bare
  /-- The bytes that the transfer has moved by now. -/
  total : Nat
  call : Call
  step : Step

structure Transfer (ε : Type) where
  result : Except RingError Nat
  ring : Bare
  endpoint : ε
  /-- The calls in order, each with the ring behind it. -/
  trace : List (Call × Bare)

/-- What a transfer has at hand between two polls. -/
structure Underway (ε : Type) where
  ring : Bare
  endpoint : ε
  total : Nat
  trace : List (Call × Bare)

namespace Underway

variable {ε : Type}

def after (u : Underway ε) (a : Absorbed) (endpoint : ε) : Underway ε :=
  ⟨a.ring, endpoint, a.total, u.trace ++ [(a.call, a.ring)]⟩

def finish (u : Underway ε) (result : Except RingError Nat) : Transfer ε :=
  ⟨result, u.ring, u.endpoint, u.trace⟩

/-- Ends a transfer or goes on with it, as its last answer has it. -/
def next (u : Underway ε) : Step → Transfer ε ⊕ Underway ε
  | .more => .inr u
  | .done => .inl (u.finish (.ok u.total))
  | .failed error => .inl (u.finish (.error error))

end Underway

section Program

variable (build : Build)

/-- What a reader left in the cells that it was given. -/
def scribble (r : Bare) (span : Span) (edits : List (Option UInt8)) : Bare :=
  { r with cells := Cells.patch r.cells span.start (edits.take span.length) }

/-- Takes in the answer of a reader that was given `span`, of which `want` bytes were wanted. -/
def absorbRead (r : Bare) (span : Span) (answer : ReadAnswer) (want total : Nat) :
    Guarded Absorbed :=
  let call := answer.call (Cells.slice r.cells span.start span.stop)
  let left := scribble r span answer.stores
  match answer.result with
  | .error cause => pure ⟨left, total, call, .failed (.endpoint .read total cause)⟩
  | .ok n =>
    if want < n then
      pure ⟨left, total, call, .failed (.endpoint .read total (.overReported n want))⟩
    else if n = 0 then pure ⟨left, total, call, .done⟩
    else do
      let total ← build.add total n
      let later ← commit build left n
      pure ⟨later, total, call, if n < want then .done else .more⟩

def fillPass {ρ : Type} (rd : RawReader ρ) (u : Underway ρ) :
    Guarded (Transfer ρ ⊕ Underway ρ) := do
  let want ← writableRun build u.ring
  if 0 < want then do
    let span ← writable build u.ring
    match rd.poll u.endpoint span.length with
    | (.pending, later) => pure (.inr { u with endpoint := later })
    | (.ready answer, later) => do
      let a ← absorbRead build u.ring span answer want u.total
      pure ((u.after a later).next a.step)
  else pure (.inl (u.finish (.ok u.total)))

def fillFrom {ρ : Type} (rd : RawReader ρ) : Underway ρ → Guarded (Transfer ρ) :=
  Guarded.loop (fillPass build rd)

def fill {ρ : Type} (rd : RawReader ρ) (r : Bare) (source : ρ) : Guarded (Transfer ρ) :=
  fillFrom build rd ⟨r, source, 0, []⟩

/-- Takes in the answer of a writer that was offered `bytes`, of which `offer` was the number. -/
def absorbWrite (r : Bare) (bytes : List UInt8) (answer : WriteAnswer) (offer total : Nat) :
    Guarded Absorbed :=
  let call := Call.write bytes answer
  match answer with
  | .error cause => pure ⟨r, total, call, .failed (.endpoint .write total cause)⟩
  | .ok n =>
    if offer < n then
      pure ⟨r, total, call, .failed (.endpoint .write total (.overReported n offer))⟩
    else do
      let total ← build.add total n
      let later ← consume build r n
      pure ⟨later, total, call, if n < offer then .done else .more⟩

def drainPass {ω : Type} (wr : RawWriter ω) (u : Underway ω) :
    Guarded (Transfer ω ⊕ Underway ω) := do
  let offer ← readableRun build u.ring
  if 0 < offer then do
    let bytes ← readable build u.ring
    match wr.poll u.endpoint bytes with
    | (.pending, later) => pure (.inr { u with endpoint := later })
    | (.ready answer, later) => do
      let a ← absorbWrite build u.ring bytes answer offer u.total
      pure ((u.after a later).next a.step)
  else pure (.inl (u.finish (.ok u.total)))

def drainFrom {ω : Type} (wr : RawWriter ω) : Underway ω → Guarded (Transfer ω) :=
  Guarded.loop (drainPass build wr)

def drain {ω : Type} (wr : RawWriter ω) (r : Bare) (sink : ω) : Guarded (Transfer ω) :=
  drainFrom build wr ⟨r, sink, 0, []⟩

end Program

end Bare

/-- Calls that led from one ring to another, each with the bare form of the ring behind it. -/
inductive Traces : Ring → List (Call × Bare) → Ring → Prop
  | nil (ring : Ring) : Traces ring [] ring
  | cons {ring next last : Ring} {call : Call} {trace : List (Call × Bare)}
      (first : Balanced ring [call] next) (rest : Traces next trace last) :
      Traces ring ((call, next.bare) :: trace) last

theorem Traces.append {ring middle last : Ring} {a b : List (Call × Bare)}
    (h₁ : Traces ring a middle) (h₂ : Traces middle b last) : Traces ring (a ++ b) last := by
  induction h₁ with
  | nil => exact h₂
  | cons first _ ih => exact .cons first (ih h₂)

/-- A program that had already made the calls of `before` comes to what a transfer from `ring` comes
    to, by the same calls. -/
def Bare.Transfer.Mirrors {ε : Type} (program : Guarded (Bare.Transfer ε))
    (before : List (Call × Bare)) (ring : Ring) (t : RingRelay.Transfer ε) : Prop :=
  ∃ trace, program = pure ⟨t.result, t.ring.bare, t.endpoint, before ++ trace⟩ ∧
    trace.map Prod.fst = t.calls ∧ Traces ring trace t.ring

namespace Bare

variable {build : Build}

/-! ## One answer -/

theorem scribble_eq (ring : Ring) (edits : List (Option UInt8)) :
    scribble ring.bare ⟨ring.tail, ring.tail + ring.writableRun⟩ edits =
      (ring.scribble edits).bare := by
  unfold scribble Ring.scribble
  rw [Span.length, Nat.add_sub_cancel_left]
  rfl

theorem absorbRead_eq (ring : Ring) (answer : ReadAnswer) {total : Nat} (h : total ≤ ring.size) :
    absorbRead build ring.bare ⟨ring.tail, ring.tail + ring.writableRun⟩ answer ring.writableRun
        total =
      pure ⟨(ring.absorbRead answer total).ring.bare, total + (ring.absorbRead answer total).moved,
        (ring.absorbRead answer total).call, (ring.absorbRead answer total).step⟩ := by
  have hcall : (ring.absorbRead answer total).call = answer.call (Cells.slice ring.bare.cells
      ring.tail (ring.tail + ring.writableRun)) := ring.call_absorbRead answer total
  unfold absorbRead
  simp only [scribble_eq, ← hcall]
  unfold Ring.absorbRead
  cases answer.result with
  | error cause => simp only [Nat.add_zero]
  | ok n =>
    simp only
    by_cases hle : n ≤ ring.writableRun
    · rw [if_neg (Nat.not_lt.mpr hle), dif_pos hle]
      by_cases hzero : n = 0
      · subst hzero
        simp only [if_true, true_or]
        rfl
      · have hroom := ring.writableRun_le_remaining
        have hsize := ring.size_le_capacity
        have hcommit : n ≤ (ring.scribble answer.stores).remaining := by
          rw [Ring.remaining_scribble]
          omega
        have hremaining : ring.remaining ≤ ring.capacity := Nat.sub_le _ _
        rw [if_neg hzero, Build.add_of_lt (add_lt_wordCount ring (by omega) (by omega)), pure_bind,
          commit_eq (ring.scribble answer.stores) hcommit, pure_bind]
        simp only [hzero, false_or]
    · rw [if_pos (Nat.lt_of_not_le hle), dif_neg hle, Nat.add_zero]

theorem absorbWrite_eq (ring : Ring) (answer : WriteAnswer) {total : Nat}
    (h : total + ring.size ≤ ring.capacity) :
    absorbWrite build ring.bare ring.readable answer ring.readableRun total =
      pure ⟨(ring.absorbWrite answer total).ring.bare,
        total + (ring.absorbWrite answer total).moved,
        (ring.absorbWrite answer total).call, (ring.absorbWrite answer total).step⟩ := by
  cases answer with
  | error cause => simp only [absorbWrite, Ring.absorbWrite, Nat.add_zero]
  | ok n =>
    by_cases hle : n ≤ ring.readableRun
    · have hrun := ring.readableRun_le_size
      simp only [absorbWrite, Ring.absorbWrite, if_neg (Nat.not_lt.mpr hle), dif_pos hle]
      rw [Build.add_of_lt (add_lt_wordCount ring (by omega) (by omega)), pure_bind,
        consume_eq ring (Nat.le_trans hle hrun), pure_bind]
    · simp only [absorbWrite, Ring.absorbWrite, if_pos (Nat.lt_of_not_le hle), dif_neg hle,
        Nat.add_zero]

/-! ## The loops -/

namespace Transfer.Mirrors

variable {ε : Type} {program : Guarded (Transfer ε)} {before : List (Call × Bare)}

theorem idle (ring : Ring) (endpoint : ε) (total : Nat)
    (h : program = pure ⟨.ok total, ring.bare, endpoint, before⟩) :
    Mirrors program before ring (ring.idle endpoint total) := by
  refine ⟨[], ?_, rfl, .nil ring⟩
  rw [h, List.append_nil]
  rfl

/-- A transfer that ends with an answer. -/
theorem last {ring : Ring} {a : RingRelay.Absorbed} (hfirst : Balanced ring [a.call] a.ring)
    (endpoint : ε) (result : Except RingError Nat)
    (h : program = pure ⟨result, a.ring.bare, endpoint, before ++ [(a.call, a.ring.bare)]⟩) :
    Mirrors program before ring (a.finish endpoint result) :=
  ⟨[(a.call, a.ring.bare)], h, rfl, .cons hfirst (.nil a.ring)⟩

/-- A transfer that goes on after an answer. -/
theorem more {ring : Ring} {a : RingRelay.Absorbed} (hfirst : Balanced ring [a.call] a.ring)
    {t : RingRelay.Transfer ε}
    (h : Mirrors program (before ++ [(a.call, a.ring.bare)]) a.ring t) :
    Mirrors program before ring (t.after a) := by
  obtain ⟨trace, hprogram, hcalls, htraces⟩ := h
  refine ⟨(a.call, a.ring.bare) :: trace, ?_, ?_, .cons hfirst htraces⟩
  · rw [hprogram, List.append_assoc]
    rfl
  · rw [List.map_cons, hcalls]
    rfl

end Transfer.Mirrors

section Fill

variable {ρ : Type} {rd : RawReader ρ} {ring : Ring} {source later : ρ} {total : Nat}
  {before : List (Call × Bare)}

theorem fillPass_of_pending (hrun : 0 < ring.writableRun)
    (hp : rd.poll source ring.writableRun = (.pending, later)) :
    fillPass build rd ⟨ring.bare, source, total, before⟩ =
      pure (.inr ⟨ring.bare, later, total, before⟩) := by
  unfold fillPass
  rw [writableRun_eq, pure_bind, if_pos hrun, writable_eq, pure_bind]
  simp only [Span.length, Nat.add_sub_cancel_left, hp]

theorem fillPass_of_ready {answer : ReadAnswer} {step : Step} (hrun : 0 < ring.writableRun)
    (hp : rd.poll source ring.writableRun = (.ready answer, later)) (h : total ≤ ring.size)
    (hstep : (ring.absorbRead answer total).step = step) :
    fillPass build rd ⟨ring.bare, source, total, before⟩ =
      let a := ring.absorbRead answer total
      pure (Underway.next ⟨a.ring.bare, later, total + a.moved, before ++ [(a.call, a.ring.bare)]⟩
        step) := by
  unfold fillPass
  rw [writableRun_eq, pure_bind, if_pos hrun, writable_eq, pure_bind]
  simp only [Span.length, Nat.add_sub_cancel_left, hp]
  rw [absorbRead_eq ring answer h, pure_bind, ← hstep]
  rfl

theorem fillPass_of_full (hrun : ¬ 0 < ring.writableRun) :
    fillPass build rd ⟨ring.bare, source, total, before⟩ =
      pure (.inl ⟨.ok total, ring.bare, source, before⟩) := by
  unfold fillPass
  rw [writableRun_eq, pure_bind, if_neg hrun]
  rfl

end Fill

/-- The fill of a ring and a program's fill of its bare form, whose count is within the ring's
    size. -/
theorem mirrors_fillFrom (build : Build) {ρ : Type} (rd : WaitingReader ρ) (ring : Ring)
    (source : ρ) (total : Nat) (before : List (Call × Bare)) (h : total ≤ ring.size) :
    Transfer.Mirrors (fillFrom build rd.raw ⟨ring.bare, source, total, before⟩) before ring
      (Ring.fillWaitingFrom rd ring source total) := by
  fun_induction Ring.fillWaitingFrom rd ring source total generalizing before with
  | case1 ring source total hrun later hp ih =>
    rw [fillFrom, Guarded.loop_of_next (fillPass_of_pending hrun hp)]
    exact ih before h
  | case2 ring source total hrun answer later hp a ha ih =>
    have hmoves := Ring.moves_absorbRead ring answer total
    have hgrown := (Ring.absorbRead_of_more ha).2
    have hmoved := (Ring.moved_absorbRead_of_more ha).1
    -- All that a fill has counted so far is in the ring, so the count stays a word.
    have hle : total + (ring.absorbRead answer total).moved ≤
        (ring.absorbRead answer total).ring.size := by omega
    rw [fillFrom, Guarded.loop_of_next (fillPass_of_ready hrun hp h ha)]
    exact .more hmoves.toBalanced (ih _ hle)
  | case3 ring source total hrun answer later hp a ha =>
    have hmoves := Ring.moves_absorbRead ring answer total
    exact .last hmoves.toBalanced later _ (Guarded.loop_of_result (fillPass_of_ready hrun hp h ha))
  | case4 ring source total hrun answer later hp a error ha =>
    have hmoves := Ring.moves_absorbRead ring answer total
    exact .last hmoves.toBalanced later _ (Guarded.loop_of_result (fillPass_of_ready hrun hp h ha))
  | case5 ring source total hrun =>
    exact .idle ring source total (Guarded.loop_of_result (fillPass_of_full hrun))

section Drain

variable {ω : Type} {wr : RawWriter ω} {ring : Ring} {sink later : ω} {total : Nat}
  {before : List (Call × Bare)}

theorem drainPass_of_pending (hrun : 0 < ring.readableRun)
    (hp : wr.poll sink ring.readable = (.pending, later)) :
    drainPass build wr ⟨ring.bare, sink, total, before⟩ =
      pure (.inr ⟨ring.bare, later, total, before⟩) := by
  unfold drainPass
  rw [readableRun_eq, pure_bind, if_pos hrun, readable_eq, pure_bind]
  simp only [hp]

theorem drainPass_of_ready {answer : WriteAnswer} {step : Step} (hrun : 0 < ring.readableRun)
    (hp : wr.poll sink ring.readable = (.ready answer, later))
    (h : total + ring.size ≤ ring.capacity)
    (hstep : (ring.absorbWrite answer total).step = step) :
    drainPass build wr ⟨ring.bare, sink, total, before⟩ =
      let a := ring.absorbWrite answer total
      pure (Underway.next ⟨a.ring.bare, later, total + a.moved, before ++ [(a.call, a.ring.bare)]⟩
        step) := by
  unfold drainPass
  rw [readableRun_eq, pure_bind, if_pos hrun, readable_eq, pure_bind]
  simp only [hp]
  rw [absorbWrite_eq ring answer h, pure_bind, ← hstep]
  rfl

theorem drainPass_of_drained (hrun : ¬ 0 < ring.readableRun) :
    drainPass build wr ⟨ring.bare, sink, total, before⟩ =
      pure (.inl ⟨.ok total, ring.bare, sink, before⟩) := by
  unfold drainPass
  rw [readableRun_eq, pure_bind, if_neg hrun]
  rfl

end Drain

/-- The drain of a ring and a program's drain of its bare form, whose count and the ring's size
    together are within the capacity. -/
theorem mirrors_drainFrom (build : Build) {ω : Type} (wr : WaitingWriter ω) (ring : Ring)
    (sink : ω) (total : Nat) (before : List (Call × Bare)) (h : total + ring.size ≤ ring.capacity) :
    Transfer.Mirrors (drainFrom build wr.raw ⟨ring.bare, sink, total, before⟩) before ring
      (Ring.drainWaitingFrom wr ring sink total) := by
  fun_induction Ring.drainWaitingFrom wr ring sink total generalizing before with
  | case1 ring sink total hrun later hp ih =>
    rw [drainFrom, Guarded.loop_of_next (drainPass_of_pending hrun hp)]
    exact ih before h
  | case2 ring sink total hrun answer later hp a ha ih =>
    have hmoves := Ring.moves_absorbWrite ring answer total
    have hsize := Ring.size_absorbWrite ring answer total
    have hmoved := Ring.moved_absorbWrite_le ring answer total
    -- What a drain has counted so far has left the ring, which held no more than its capacity.
    have hle : total + (ring.absorbWrite answer total).moved +
        (ring.absorbWrite answer total).ring.size ≤
          (ring.absorbWrite answer total).ring.capacity := by
      rw [hmoves.capacity]
      omega
    rw [drainFrom, Guarded.loop_of_next (drainPass_of_ready hrun hp h ha)]
    exact .more hmoves.toBalanced (ih _ hle)
  | case3 ring sink total hrun answer later hp a ha =>
    have hmoves := Ring.moves_absorbWrite ring answer total
    exact .last hmoves.toBalanced later _ (Guarded.loop_of_result (drainPass_of_ready hrun hp h ha))
  | case4 ring sink total hrun answer later hp a error ha =>
    have hmoves := Ring.moves_absorbWrite ring answer total
    exact .last hmoves.toBalanced later _ (Guarded.loop_of_result (drainPass_of_ready hrun hp h ha))
  | case5 ring sink total hrun =>
    exact .idle ring sink total (Guarded.loop_of_result (drainPass_of_drained hrun))

theorem mirrors_fill (build : Build) {ρ : Type} (rd : WaitingReader ρ) (ring : Ring) (source : ρ) :
    Transfer.Mirrors (fill build rd.raw ring.bare source) [] ring (ring.fillWaiting rd source) :=
  mirrors_fillFrom build rd ring source 0 [] (Nat.zero_le _)

theorem mirrors_drain (build : Build) {ω : Type} (wr : WaitingWriter ω) (ring : Ring) (sink : ω) :
    Transfer.Mirrors (drain build wr.raw ring.bare sink) [] ring (ring.drainWaiting wr sink) := by
  apply mirrors_drainFrom
  rw [Nat.zero_add]
  exact ring.size_le_capacity

end Bare

end RingRelay
