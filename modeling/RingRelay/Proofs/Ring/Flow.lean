import RingRelay.Proofs.Endpoint.Raw
import RingRelay.Proofs.Endpoint.Served
import RingRelay.Proofs.Ring.Contents
import RingRelay.Ring.Transfer
/- What transfers do to the live bytes.

   Every transfer, in either direction and with endpoints of either kind, keeps one account:

     acknowledged ++ contents afterwards = contents before ++ delivered

   (`Balanced`). It holds of one absorbed answer, it is handed on from answer to answer, and so it
   holds of both loops, however the endpoint answers and wherever the transfer stops, and so also of
   the loops whose endpoint answers every call. The calls that a transfer remembers are the ones that
   its endpoint answered (`served_fillFrom` and its like). -/
namespace RingRelay

/-- The calls by which a ring became another, as an account of bytes: what was delivered came in
    behind the live bytes and what was acknowledged left at their front. -/
structure Balanced (first : Ring) (calls : List Call) (last : Ring) : Prop where
  conserves : acknowledged calls ++ last.contents = first.contents ++ delivered calls
  position : last.position = (first.position + (acknowledged calls).length) % first.capacity
  capacity : last.capacity = first.capacity

theorem Balanced.refl (ring : Ring) : Balanced ring [] ring where
  conserves := by rw [acknowledged_nil, delivered_nil, List.nil_append, List.append_nil]
  position := (Nat.mod_eq_of_lt ring.position_lt_capacity).symm
  capacity := rfl

/-- Accounts add up. -/
theorem Balanced.trans {first middle last : Ring} {calls more : List Call}
    (h₁ : Balanced first calls middle) (h₂ : Balanced middle more last) :
    Balanced first (calls ++ more) last where
  conserves := calc
    acknowledged (calls ++ more) ++ last.contents
      = acknowledged calls ++ (acknowledged more ++ last.contents) := by
        rw [acknowledged_append, List.append_assoc]
    _ = (acknowledged calls ++ middle.contents) ++ delivered more := by
        rw [h₂.conserves, List.append_assoc]
    _ = first.contents ++ delivered (calls ++ more) := by
        rw [h₁.conserves, delivered_append, List.append_assoc]
  position := by
    rw [h₂.position, h₁.position, h₁.capacity, Nat.mod_add_mod, acknowledged_append,
      List.length_append, Nat.add_assoc]
  capacity := h₂.capacity.trans h₁.capacity

/-- A call that moved nothing. -/
theorem Balanced.of_unmoved {first last : Ring} {call : Call} (ha : call.acknowledged = [])
    (hd : call.delivered = []) (hc : last.contents = first.contents)
    (hp : last.position = first.position) (hcap : last.capacity = first.capacity) :
    Balanced first [call] last where
  conserves := by simp [ha, hd, hc]
  position := by simp [ha, hp, Nat.mod_eq_of_lt first.position_lt_capacity]
  capacity := hcap

/-- What a transfer reports that moved `n` bytes: their number, also when its endpoint failed. -/
def Counts (direction : Direction) (n : Nat) : Except RingError Nat → Prop
  | .ok m => m = n
  | .error error => ∃ cause, error = .endpoint direction n cause

/-- One absorbed answer keeps the account of bytes. -/
structure Absorbed.Moves (a : Absorbed) (direction : Direction) (ring : Ring) (total : Nat) :
    Prop extends Balanced ring [a.call] a.ring where
  moved : a.moved = a.call.acknowledged.length + a.call.delivered.length
  failed : ∀ {error}, a.step = .failed error → a.moved = 0 ∧
    ∃ cause, error = .endpoint direction total cause

/-- A transfer keeps the account of bytes. -/
structure Transfer.Moves {ε : Type} (t : Transfer ε) (direction : Direction) (ring : Ring)
    (total : Nat) : Prop extends Balanced ring t.calls t.ring where
  counts : Counts direction (total + (acknowledged t.calls).length + (delivered t.calls).length)
    t.result

section Account

variable {ε : Type} {direction : Direction} {ring : Ring} {total : Nat} {a : Absorbed}

theorem Transfer.Moves.idle (direction : Direction) (ring : Ring) (endpoint : ε) (total : Nat) :
    (ring.idle endpoint total).Moves direction ring total where
  toBalanced := .refl ring
  counts := by simp [Ring.idle, Counts]

theorem Absorbed.Moves.done (h : a.Moves direction ring total) (endpoint : ε) :
    (a.finish endpoint (.ok (total + a.moved))).Moves direction ring total where
  toBalanced := h.toBalanced
  counts := by
    have := h.moved
    simp only [Absorbed.finish, Counts, acknowledged_cons, delivered_cons, acknowledged_nil,
      delivered_nil, List.append_nil]
    omega

theorem Absorbed.Moves.stopped (h : a.Moves direction ring total) {error : RingError}
    (hs : a.step = .failed error) (endpoint : ε) :
    (a.finish endpoint (.error error)).Moves direction ring total where
  toBalanced := h.toBalanced
  counts := by
    obtain ⟨hzero, cause, rfl⟩ := h.failed hs
    have hmoved := h.moved
    refine ⟨cause, ?_⟩
    simp only [Absorbed.finish, acknowledged_cons, delivered_cons, acknowledged_nil,
      delivered_nil, List.append_nil]
    congr 1
    omega

/-- An absorbed answer and the rest of the transfer, put together. -/
theorem Absorbed.Moves.more (h : a.Moves direction ring total) {t : Transfer ε}
    (ht : t.Moves direction a.ring (total + a.moved)) :
    (t.after a).Moves direction ring total where
  toBalanced := h.toBalanced.trans ht.toBalanced
  counts := by
    have hcount := ht.counts
    have hsum : total + a.moved + (acknowledged t.calls).length + (delivered t.calls).length =
        total + (acknowledged (t.after a).calls).length +
          (delivered (t.after a).calls).length := by
      simp only [Transfer.after, acknowledged_cons, delivered_cons, List.length_append, h.moved]
      omega
    rwa [hsum] at hcount

end Account

namespace Ring

/-! ## One answer -/

@[simp] theorem tail_scribble (ring : Ring) (edits : List (Option UInt8)) :
    (ring.scribble edits).tail = ring.tail := by
  simp [tail]

/-- The row behind the tail as a reader leaves it. -/
theorem slice_scribble (ring : Ring) (edits : List (Option UInt8)) {n : Nat}
    (hn : n ≤ ring.writableRun) :
    Cells.slice (ring.scribble edits).cells ring.tail (ring.tail + n) =
      (Cells.overlay ring.writable edits).take n := by
  have hend : ring.tail + ring.writableRun ≤ ring.cells.size := tail_add_writableRun_le ring
  have hlen : ring.writable.length ≤ ring.writableRun := Nat.le_of_eq ring.length_writable
  rw [← Cells.take_slice _ hn, scribble, Cells.slice_patch _ _ hend, ← writable,
    Cells.overlay_take _ _ hlen]

/-- What comes in by a commit of cells that a reader has written. -/
theorem contents_commit_scribble (ring : Ring) (edits : List (Option UInt8)) {n : Nat}
    (h : n ≤ (ring.scribble edits).remaining) (hn : n ≤ ring.writableRun) :
    ((ring.scribble edits).commit n h).contents =
      ring.contents ++ (Cells.overlay ring.writable edits).take n := by
  rw [contents_commit _ h (by simpa using hn), contents_scribble, tail_scribble,
    slice_scribble ring edits hn]

/-- The call that is remembered is the reader's answer to the row behind the tail. -/
theorem call_absorbRead (ring : Ring) (answer : ReadAnswer) (total : Nat) :
    (ring.absorbRead answer total).call = answer.call ring.writable := by
  unfold absorbRead ReadAnswer.call ReadAnswer.delivered
  rw [length_writable]
  split
  · next h => simp [h]
  · next n h =>
    simp only [h]
    split
    · next hle => simp [slice_scribble ring answer.stores hle]
    · rfl

theorem room_absorbRead (ring : Ring) (answer : ReadAnswer) (total : Nat) :
    (ring.absorbRead answer total).call.room? = some ring.writableRun := by
  rw [call_absorbRead, ReadAnswer.call, length_writable]
  rfl

theorem moves_absorbRead (ring : Ring) (answer : ReadAnswer) (total : Nat) :
    (ring.absorbRead answer total).Moves .read ring total := by
  -- An answer that brings nothing in may still have changed cells that are not live.
  have hstill : ∀ result, Balanced ring [.read ring.writableRun result []]
      (ring.scribble answer.stores) := fun result =>
    .of_unmoved rfl rfl (ring.contents_scribble _) (ring.position_scribble _)
      (ring.capacity_scribble _)
  unfold absorbRead
  split
  · next cause _ =>
    refine ⟨hstill (.error cause), rfl, ?_⟩
    rintro error ⟨rfl⟩
    exact ⟨rfl, cause, rfl⟩
  · next n _ =>
    split
    · next hle =>
      have hbytes := slice_scribble ring answer.stores hle
      refine ⟨⟨?_, ?_, ?_⟩, ?_, ?_⟩
      · simp [Call.acknowledged, Call.delivered, hbytes, contents_commit_scribble ring _ _ hle]
      · simp [Call.acknowledged, Nat.mod_eq_of_lt ring.position_lt_capacity]
      · simp
      · simp [Call.acknowledged, Call.delivered, hbytes, hle]
      · intro error
        simp only
        split <;> simp
    · refine ⟨hstill (.ok n), rfl, ?_⟩
      rintro error ⟨rfl⟩
      exact ⟨rfl, _, rfl⟩

/-- The call of an absorbed answer, with the reader's own result. -/
theorem call_absorbRead_eq (ring : Ring) (answer : ReadAnswer) (total : Nat) :
    (ring.absorbRead answer total).call =
      .read ring.writableRun answer.result (ring.absorbRead answer total).call.delivered := by
  rw [call_absorbRead, ReadAnswer.call, length_writable]
  rfl

/-- What a reader's answer brings in comes behind the live bytes, which stay where they are. -/
theorem contents_absorbRead (ring : Ring) (answer : ReadAnswer) (total : Nat) :
    (ring.absorbRead answer total).ring.contents =
        ring.contents ++ (ring.absorbRead answer total).call.delivered ∧
      (ring.absorbRead answer total).ring.position = ring.position := by
  have hmoves := moves_absorbRead ring answer total
  have hnone : acknowledged [(ring.absorbRead answer total).call] = [] := by
    rw [call_absorbRead_eq]
    rfl
  have hconserves := hmoves.conserves
  have hposition := hmoves.position
  rw [hnone] at hconserves hposition
  constructor
  · simpa using hconserves
  · simpa [Nat.mod_eq_of_lt ring.position_lt_capacity] using hposition

/-- A fill goes on only after an answer that filled the whole row. -/
theorem absorbRead_of_more {ring : Ring} {answer : ReadAnswer} {total : Nat}
    (h : (ring.absorbRead answer total).step = .more) :
    answer.result = .ok ring.writableRun ∧
      (ring.absorbRead answer total).ring.size = ring.size + ring.writableRun := by
  obtain ⟨hmoved, hpos⟩ := moved_absorbRead_of_more h
  have hresult := result_of_moved_absorbRead (hmoved ▸ hpos)
  have hremaining := remaining_absorbRead ring answer total
  have hcapacity := (moves_absorbRead ring answer total).capacity
  have hrun := ring.writableRun_le_remaining
  have hsize := ring.size_le_capacity
  have hsize' := (ring.absorbRead answer total).ring.size_le_capacity
  rw [hmoved] at hresult hremaining
  refine ⟨hresult, ?_⟩
  unfold remaining at hremaining hrun
  omega

/-- An answer that fills the whole row lets the fill go on. -/
theorem step_absorbRead_of_full {ring : Ring} {answer : ReadAnswer} {total : Nat}
    (hpos : 0 < ring.writableRun) (h : answer.result = .ok ring.writableRun) :
    (ring.absorbRead answer total).step = .more := by
  unfold absorbRead
  rw [h]
  simp only [Nat.le_refl, dite_true]
  rw [if_neg (by omega)]

/-- What a fill takes in makes the ring longer. -/
theorem size_absorbRead (ring : Ring) (answer : ReadAnswer) (total : Nat) :
    (ring.absorbRead answer total).ring.size =
      ring.size + (ring.absorbRead answer total).moved := by
  unfold absorbRead
  split
  · rfl
  · split <;> rfl

/-- A fill with room is done after an answer that left some of the row free. -/
theorem absorbRead_of_done {ring : Ring} {answer : ReadAnswer} {total : Nat}
    (hpos : 0 < ring.writableRun) (h : (ring.absorbRead answer total).step = .done) :
    answer.result = .ok (ring.absorbRead answer total).moved ∧
      (ring.absorbRead answer total).moved < ring.writableRun := by
  unfold absorbRead at h ⊢
  split at h
  · simp at h
  · next n hn =>
    split at h
    · next hle =>
      simp only [hn, hle, dite_true]
      simp only [ite_eq_left_iff, reduceCtorEq, imp_false, Decidable.not_not] at h
      exact ⟨trivial, by omega⟩
    · simp at h

/-- The end of the stream is no failure. -/
theorem result_ne_zero_of_failed {ring : Ring} {answer : ReadAnswer} {total : Nat}
    {error : RingError} (h : (ring.absorbRead answer total).step = .failed error) :
    answer.result ≠ .ok 0 := by
  intro hzero
  unfold absorbRead at h
  simp [hzero] at h

/-- The call that is remembered offered the first live bytes and got the writer's answer. -/
theorem call_absorbWrite (ring : Ring) (answer : WriteAnswer) (total : Nat) :
    (ring.absorbWrite answer total).call = .write ring.readable answer := by
  unfold absorbWrite
  split
  · rfl
  · split <;> rfl

theorem offered_absorbWrite (ring : Ring) (answer : WriteAnswer) (total : Nat) :
    (ring.absorbWrite answer total).call.offered? = some ring.readable := by
  rw [call_absorbWrite]
  rfl

theorem moves_absorbWrite (ring : Ring) (answer : WriteAnswer) (total : Nat) :
    (ring.absorbWrite answer total).Moves .write ring total := by
  unfold absorbWrite
  split
  · next cause =>
    refine ⟨.of_unmoved rfl rfl rfl rfl rfl, rfl, ?_⟩
    rintro error ⟨rfl⟩
    exact ⟨rfl, cause, rfl⟩
  · next n =>
    split
    · next hle =>
      have hsize := ring.readableRun_le_size
      have htake : ring.readable.take n = ring.contents.take n := by
        rw [readable_eq_take, List.take_take, Nat.min_eq_left hle]
      refine ⟨⟨?_, ?_, rfl⟩, ?_, ?_⟩
      · simp [Call.acknowledged, Call.delivered, hle, htake, contents_consume]
      · simp [Call.acknowledged, hle, consume]
      · simp [Call.acknowledged, Call.delivered, hle]
      · intro error
        simp only
        split <;> simp
    · next hgt =>
      have hnone : (Call.write ring.readable (.ok n)).acknowledged = [] := by
        simp [Call.acknowledged, hgt]
      refine ⟨.of_unmoved hnone rfl rfl rfl rfl, by simp [hnone, Call.delivered], ?_⟩
      rintro error ⟨rfl⟩
      exact ⟨rfl, _, rfl⟩

/-- A drain that did not fail took over as much as its writer reports, and goes on only if that was
    all that was offered. -/
theorem absorbWrite_of_ok {ring : Ring} {answer : WriteAnswer} {total : Nat}
    (h : ∀ error, (ring.absorbWrite answer total).step ≠ .failed error) :
    answer = .ok (ring.absorbWrite answer total).moved ∧
      (ring.absorbWrite answer total).moved ≤ ring.readableRun ∧
      ((ring.absorbWrite answer total).step = .more ↔
        (ring.absorbWrite answer total).moved = ring.readableRun) := by
  unfold absorbWrite at h ⊢
  cases answer with
  | error cause => simp at h
  | ok n =>
    by_cases hle : n ≤ ring.readableRun
    · simp only [hle, dite_true, ite_eq_right_iff, reduceCtorEq, imp_false, true_and]
      omega
    · simp [hle] at h

/-! ## The loops -/

section Fill

variable {ρ : Type}

theorem moves_fillWaitingFrom (rd : WaitingReader ρ) (ring : Ring) (source : ρ) (total : Nat) :
    (fillWaitingFrom rd ring source total).Moves .read ring total := by
  fun_induction fillWaitingFrom rd ring source total with
  | case1 _ _ _ _ _ _ ih => exact ih
  | case2 ring _ total _ answer _ _ a _ ih => exact (moves_absorbRead ring answer total).more ih
  | case3 ring _ total _ answer _ _ a _ => exact (moves_absorbRead ring answer total).done _
  | case4 ring _ total _ answer _ _ a _ h =>
    exact (moves_absorbRead ring answer total).stopped h _
  | case5 ring source total => exact .idle _ ring source total

theorem moves_fillFrom (rd : Reader ρ) (ring : Ring) (source : ρ) (total : Nat) :
    (fillFrom rd ring source total).Moves .read ring total := by
  rw [← fillWaitingFrom_waiting]
  exact moves_fillWaitingFrom rd.waiting ring source total

/-- An answer to the row behind the tail, as a call of the reader. -/
theorem turn_absorbRead {rd : Reader ρ} {ring : Ring} {source later : ρ} {answer : ReadAnswer}
    (total : Nat) (h : rd.read source ring.writableRun = (answer, later)) :
    rd.Turn source (ring.absorbRead answer total).call later := by
  rw [call_absorbRead]
  exact .read ring.writable (by rwa [length_writable])

theorem served_fillFrom (rd : Reader ρ) (ring : Ring) (source : ρ) (total : Nat) :
    Served rd.Turn source (fillFrom rd ring source total).calls
      (fillFrom rd ring source total).endpoint := by
  fun_induction fillFrom rd ring source total with
  | case1 ring source total _ reply a _ ih => exact .cons (turn_absorbRead total rfl) ih
  | case2 ring source total _ reply a _ => exact .single (turn_absorbRead total rfl)
  | case3 ring source total _ reply a _ _ => exact .single (turn_absorbRead total rfl)
  | case4 _ source _ => exact .nil source

/-- A reader that was not ready for the row behind the tail and answered to it later on. -/
theorem waitingTurn_absorbRead {rd : WaitingReader ρ} {ring : Ring} {source later : ρ}
    {answer : ReadAnswer} (total : Nat)
    (h : rd.poll source ring.writableRun = (.ready answer, later)) :
    rd.Turn source (ring.absorbRead answer total).call later := by
  rw [call_absorbRead]
  exact .ready ring.writable (by rwa [length_writable])

/-- The first read of a fill is into the row behind the tail, however long it is waited for. -/
theorem fillWaitingFrom_calls (rd : WaitingReader ρ) (ring : Ring) (source : ρ) (total : Nat)
    (hrun : 0 < ring.writableRun) :
    ∃ call calls, (fillWaitingFrom rd ring source total).calls = call :: calls ∧
      call.room? = some ring.writableRun := by
  fun_induction fillWaitingFrom rd ring source total with
  | case1 _ _ _ _ _ _ ih => exact ih hrun
  | case2 ring source total _ answer _ _ a _ _ =>
    exact ⟨_, _, rfl, room_absorbRead ring answer total⟩
  | case3 ring source total _ answer _ _ a _ =>
    exact ⟨_, _, rfl, room_absorbRead ring answer total⟩
  | case4 ring source total _ answer _ _ a _ _ =>
    exact ⟨_, _, rfl, room_absorbRead ring answer total⟩
  | case5 ring source total h => exact absurd hrun h

theorem served_fillWaitingFrom (rd : WaitingReader ρ) (ring : Ring) (source : ρ) (total : Nat) :
    Served rd.Turn source (fillWaitingFrom rd ring source total).calls
      (fillWaitingFrom rd ring source total).endpoint := by
  fun_induction fillWaitingFrom rd ring source total with
  -- A reader that was not ready answers to the first call of what follows, which asks for the same.
  | case1 ring source total hrun later hp ih =>
    obtain ⟨call, calls, hcalls, hroom⟩ := fillWaitingFrom_calls rd ring later total hrun
    rw [hcalls] at ih ⊢
    cases ih with
    | cons first rest => exact .cons (first.after_pending hp hroom) rest
  | case2 ring source total _ answer _ hp a _ ih =>
    exact .cons (waitingTurn_absorbRead total hp) ih
  | case3 ring source total _ answer _ hp a _ => exact .single (waitingTurn_absorbRead total hp)
  | case4 ring source total _ answer _ hp a _ _ => exact .single (waitingTurn_absorbRead total hp)
  | case5 _ source _ => exact .nil source

/-- A fill of a full ring calls nobody, and only that. -/
theorem calls_fillWaitingFrom_eq_nil_iff (rd : WaitingReader ρ) (ring : Ring) (source : ρ)
    (total : Nat) :
    (fillWaitingFrom rd ring source total).calls = [] ↔ ring.size = ring.capacity := by
  rw [← writableRun_eq_zero_iff]
  constructor
  · intro h
    by_cases hrun : 0 < ring.writableRun
    · obtain ⟨call, calls, hcalls, _⟩ := fillWaitingFrom_calls rd ring source total hrun
      rw [hcalls] at h
      cases h
    · omega
  · intro h
    unfold fillWaitingFrom
    simp [h, idle]

theorem calls_fillFrom_eq_nil_iff (rd : Reader ρ) (ring : Ring) (source : ρ) (total : Nat) :
    (fillFrom rd ring source total).calls = [] ↔ ring.size = ring.capacity := by
  rw [← fillWaitingFrom_waiting]
  exact calls_fillWaitingFrom_eq_nil_iff rd.waiting ring source total

end Fill

section Drain

variable {ω : Type}

theorem moves_drainWaitingFrom (wr : WaitingWriter ω) (ring : Ring) (sink : ω) (total : Nat) :
    (drainWaitingFrom wr ring sink total).Moves .write ring total := by
  fun_induction drainWaitingFrom wr ring sink total with
  | case1 _ _ _ _ _ _ ih => exact ih
  | case2 ring _ total _ answer _ _ a _ ih => exact (moves_absorbWrite ring answer total).more ih
  | case3 ring _ total _ answer _ _ a _ => exact (moves_absorbWrite ring answer total).done _
  | case4 ring _ total _ answer _ _ a _ h =>
    exact (moves_absorbWrite ring answer total).stopped h _
  | case5 ring sink total => exact .idle _ ring sink total

theorem moves_drainFrom (wr : Writer ω) (ring : Ring) (sink : ω) (total : Nat) :
    (drainFrom wr ring sink total).Moves .write ring total := by
  rw [← drainWaitingFrom_waiting]
  exact moves_drainWaitingFrom wr.waiting ring sink total

theorem turn_absorbWrite {wr : Writer ω} {ring : Ring} {sink later : ω} {answer : WriteAnswer}
    (total : Nat) (h : wr.write sink ring.readable = (answer, later)) :
    wr.Turn sink (ring.absorbWrite answer total).call later := by
  rw [call_absorbWrite]
  exact .write h

theorem served_drainFrom (wr : Writer ω) (ring : Ring) (sink : ω) (total : Nat) :
    Served wr.Turn sink (drainFrom wr ring sink total).calls
      (drainFrom wr ring sink total).endpoint := by
  fun_induction drainFrom wr ring sink total with
  | case1 ring sink total _ reply a _ ih => exact .cons (turn_absorbWrite total rfl) ih
  | case2 ring sink total _ reply a _ => exact .single (turn_absorbWrite total rfl)
  | case3 ring sink total _ reply a _ _ => exact .single (turn_absorbWrite total rfl)
  | case4 _ sink _ => exact .nil sink

theorem waitingTurn_absorbWrite {wr : WaitingWriter ω} {ring : Ring} {sink later : ω}
    {answer : WriteAnswer} (total : Nat)
    (h : wr.poll sink ring.readable = (.ready answer, later)) :
    wr.Turn sink (ring.absorbWrite answer total).call later := by
  rw [call_absorbWrite]
  exact .ready h

/-- The first write of a drain offers the first live bytes, however long it is waited for. -/
theorem drainWaitingFrom_calls (wr : WaitingWriter ω) (ring : Ring) (sink : ω) (total : Nat)
    (hrun : 0 < ring.readableRun) :
    ∃ call calls, (drainWaitingFrom wr ring sink total).calls = call :: calls ∧
      call.offered? = some ring.readable := by
  fun_induction drainWaitingFrom wr ring sink total with
  | case1 _ _ _ _ _ _ ih => exact ih hrun
  | case2 ring sink total _ answer _ _ a _ _ =>
    exact ⟨_, _, rfl, offered_absorbWrite ring answer total⟩
  | case3 ring sink total _ answer _ _ a _ =>
    exact ⟨_, _, rfl, offered_absorbWrite ring answer total⟩
  | case4 ring sink total _ answer _ _ a _ _ =>
    exact ⟨_, _, rfl, offered_absorbWrite ring answer total⟩
  | case5 ring sink total h => exact absurd hrun h

theorem served_drainWaitingFrom (wr : WaitingWriter ω) (ring : Ring) (sink : ω) (total : Nat) :
    Served wr.Turn sink (drainWaitingFrom wr ring sink total).calls
      (drainWaitingFrom wr ring sink total).endpoint := by
  fun_induction drainWaitingFrom wr ring sink total with
  | case1 ring sink total hrun later hp ih =>
    obtain ⟨call, calls, hcalls, hoffered⟩ := drainWaitingFrom_calls wr ring later total hrun
    rw [hcalls] at ih ⊢
    cases ih with
    | cons first rest => exact .cons (first.after_pending hp hoffered) rest
  | case2 ring sink total _ answer _ hp a _ ih => exact .cons (waitingTurn_absorbWrite total hp) ih
  | case3 ring sink total _ answer _ hp a _ => exact .single (waitingTurn_absorbWrite total hp)
  | case4 ring sink total _ answer _ hp a _ _ => exact .single (waitingTurn_absorbWrite total hp)
  | case5 _ sink _ => exact .nil sink

/-- A drain of an empty ring calls nobody, and only that. -/
theorem calls_drainWaitingFrom_eq_nil_iff (wr : WaitingWriter ω) (ring : Ring) (sink : ω)
    (total : Nat) :
    (drainWaitingFrom wr ring sink total).calls = [] ↔ ring.size = 0 := by
  rw [← readableRun_eq_zero_iff]
  constructor
  · intro h
    by_cases hrun : 0 < ring.readableRun
    · obtain ⟨call, calls, hcalls, _⟩ := drainWaitingFrom_calls wr ring sink total hrun
      rw [hcalls] at h
      cases h
    · omega
  · intro h
    unfold drainWaitingFrom
    simp [h, idle]

theorem calls_drainFrom_eq_nil_iff (wr : Writer ω) (ring : Ring) (sink : ω) (total : Nat) :
    (drainFrom wr ring sink total).calls = [] ↔ ring.size = 0 := by
  rw [← drainWaitingFrom_waiting]
  exact calls_drainWaitingFrom_eq_nil_iff wr.waiting ring sink total

end Drain

end Ring

end RingRelay
