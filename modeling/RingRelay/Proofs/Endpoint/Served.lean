import RingRelay.Endpoint.Basic
import RingRelay.Ring.Cells
/- What an endpoint did in a list of calls.

   The calls of a transfer are remembered as data. `Served turn s calls s'` ties such a list to an
   endpoint: from its state `s` on, the endpoint gave exactly these answers, in this order, and was
   then in state `s'`. One answered call of each kind of endpoint is a `Turn`; one that was found
   not ready is polled again with the same slice until it answers.

   The bytes that a read delivered are read off the reader's answer and the slice it was given
   (`ReadAnswer.delivered`), not off the ring. -/
namespace RingRelay

namespace Cells

/-- A slice of bytes after edits of its first cells. -/
def overlay : List UInt8 → List (Option UInt8) → List UInt8
  | [], _ => []
  | slice, [] => slice
  | b :: slice, edit :: edits => edit.getD b :: overlay slice edits

@[simp] theorem overlay_nil (slice : List UInt8) : overlay slice [] = slice := by
  cases slice <;> rfl

@[simp] theorem length_overlay (slice : List UInt8) (edits : List (Option UInt8)) :
    (overlay slice edits).length = slice.length := by
  fun_induction overlay slice edits with
  | case1 => rfl
  | case2 => rfl
  | case3 _ _ _ _ ih => simp [ih]

/-- Byte number `i` is the one of edit number `i`, or the old one if that edit leaves it alone. -/
theorem getElem?_overlay (slice : List UInt8) (edits : List (Option UInt8)) {i : Nat}
    (hi : i < slice.length) :
    (overlay slice edits)[i]? = (edits[i]?.join).or slice[i]? := by
  fun_induction overlay slice edits generalizing i with
  | case1 => simp at hi
  | case2 => simp
  | case3 b slice edit edits ih =>
    cases i with
    | zero => cases edit <;> simp
    | succ i => simpa using ih (by simpa using hi)

/-- Edits behind the end of a slice are not seen in it. -/
theorem overlay_take (slice : List UInt8) (edits : List (Option UInt8)) {n : Nat}
    (h : slice.length ≤ n) : overlay slice (edits.take n) = overlay slice edits := by
  fun_induction overlay slice edits generalizing n with
  | case1 => rfl
  | case2 => simp
  | case3 b slice edit edits ih =>
    cases n with
    | zero => simp at h
    | succ n => simpa [overlay] using ih (by simpa using h)

theorem take_slice (cells : Array UInt8) {start len n : Nat} (h : n ≤ len) :
    (slice cells start (start + len)).take n = slice cells start (start + n) := by
  simp [slice, Array.toList_extract, List.take_take]
  omega

theorem getElem?_slice (cells : Array UInt8) {start len i : Nat} (h : start + len ≤ cells.size)
    (hi : i < len) : (slice cells start (start + len))[i]? = cells[start + i]? := by
  rw [slice, Array.getElem?_toList, Array.getElem?_extract, if_pos (by omega)]

/-- Edits of the cells of a span are seen in its bytes. -/
theorem slice_patch (cells : Array UInt8) {start len : Nat} (edits : List (Option UInt8))
    (h : start + len ≤ cells.size) :
    slice (patch cells start edits) start (start + len) =
      overlay (slice cells start (start + len)) edits := by
  have h' : start + len ≤ (patch cells start edits).size := by rwa [size_patch]
  have hlen : (slice cells start (start + len)).length = len := by rw [length_slice _ h]; omega
  apply List.ext_getElem?
  intro i
  by_cases hi : i < len
  · rw [getElem?_overlay _ _ (by omega), getElem?_slice _ h' hi, getElem?_slice _ h hi]
    by_cases he : i < edits.length
    · rw [getElem?_patch_add cells edits he (by omega)]
      simp [he]
    · rw [getElem?_patch_of_le cells edits (by omega)]
      simp [List.getElem?_eq_none (Nat.le_of_not_lt he)]
  · rw [List.getElem?_eq_none (by rw [length_slice _ h']; omega),
      List.getElem?_eq_none (by rw [length_overlay]; omega)]

/-- Edits are not seen in the bytes of the cells before them. -/
theorem slice_patch_of_le (cells : Array UInt8) {start len first : Nat}
    (edits : List (Option UInt8)) (h : start + len ≤ first) (hfirst : first ≤ cells.size) :
    slice (patch cells first edits) start (start + len) = slice cells start (start + len) := by
  have hlen : start + len ≤ (patch cells first edits).size := by rw [size_patch]; omega
  apply List.ext_getElem?
  intro i
  by_cases hi : i < len
  · rw [getElem?_slice _ hlen hi, getElem?_slice _ (by omega) hi,
      getElem?_patch_of_lt _ _ (by omega)]
  · rw [List.getElem?_eq_none (by rw [length_slice _ hlen]; omega),
      List.getElem?_eq_none (by rw [length_slice _ (by omega)]; omega)]

end Cells

/-- The bytes that an answered call delivered in the slice it was given: of the slice as the reader
    left it, as many as it reports, or none if there are not as many. -/
def ReadAnswer.delivered (answer : ReadAnswer) (slice : List UInt8) : List UInt8 :=
  match answer.result with
  | .ok n => if n ≤ slice.length then (Cells.overlay slice answer.stores).take n else []
  | .error _ => []

/-- The bytes that some calls delivered, in the order of the calls. -/
def delivered (calls : List Call) : List UInt8 := calls.flatMap Call.delivered

/-- The bytes that some calls took over, in the order of the calls. -/
def acknowledged (calls : List Call) : List UInt8 := calls.flatMap Call.acknowledged

@[simp] theorem delivered_nil : delivered [] = [] := rfl

@[simp] theorem delivered_cons (call : Call) (calls : List Call) :
    delivered (call :: calls) = call.delivered ++ delivered calls := rfl

@[simp] theorem delivered_append (a b : List Call) :
    delivered (a ++ b) = delivered a ++ delivered b := List.flatMap_append

@[simp] theorem acknowledged_nil : acknowledged [] = [] := rfl

@[simp] theorem acknowledged_cons (call : Call) (calls : List Call) :
    acknowledged (call :: calls) = call.acknowledged ++ acknowledged calls := rfl

@[simp] theorem acknowledged_append (a b : List Call) :
    acknowledged (a ++ b) = acknowledged a ++ acknowledged b := List.flatMap_append

/-! ## Turns -/

/-- The call that is remembered of an answer to a read into `slice`. -/
def ReadAnswer.call (answer : ReadAnswer) (slice : List UInt8) : Call :=
  .read slice.length answer.result (answer.delivered slice)

/-- One call of a reader. -/
inductive Reader.Turn {ρ : Type} (rd : Reader ρ) : ρ → Call → ρ → Prop
  | read {s s' : ρ} {answer : ReadAnswer} (slice : List UInt8)
      (h : rd.read s slice.length = (answer, s')) : Turn rd s (answer.call slice) s'

/-- One call of a writer. -/
inductive Writer.Turn {ω : Type} (wr : Writer ω) : ω → Call → ω → Prop
  | write {s s' : ω} {result : WriteAnswer} {offered : List UInt8}
      (h : wr.write s offered = (result, s')) : Turn wr s (.write offered result) s'
  | flush {s s' : ω} {result : FlushAnswer}
      (h : wr.flush s = (result, s')) : Turn wr s (.flush result) s'

/-- One call of a reader that may not be ready, which is polled until it answers. -/
inductive WaitingReader.Turn {ρ : Type} (rd : WaitingReader ρ) : ρ → Call → ρ → Prop
  | ready {s s' : ρ} {answer : ReadAnswer} (slice : List UInt8)
      (h : rd.poll s slice.length = (.ready answer, s')) : Turn rd s (answer.call slice) s'
  | pending {s s' s'' : ρ} {answer : ReadAnswer} (slice : List UInt8)
      (h : rd.poll s slice.length = (.pending, s'))
      (rest : Turn rd s' (answer.call slice) s'') : Turn rd s (answer.call slice) s''

/-- One call of a writer that may not be ready, which is polled until it answers. -/
inductive WaitingWriter.Turn {ω : Type} (wr : WaitingWriter ω) : ω → Call → ω → Prop
  | ready {s s' : ω} {result : WriteAnswer} {offered : List UInt8}
      (h : wr.poll s offered = (.ready result, s')) : Turn wr s (.write offered result) s'
  | pending {s s' s'' : ω} {result : WriteAnswer} {offered : List UInt8}
      (h : wr.poll s offered = (.pending, s')) (rest : Turn wr s' (.write offered result) s'') :
      Turn wr s (.write offered result) s''
  | flush {s s' : ω} {result : FlushAnswer}
      (h : wr.flush s = (result, s')) : Turn wr s (.flush result) s'

/-- A poll that found the reader not ready belongs to the call that it then answers. -/
theorem WaitingReader.Turn.after_pending {ρ : Type} {rd : WaitingReader ρ} {s s' s'' : ρ}
    {room : Nat} {call : Call} (hp : rd.poll s room = (.pending, s')) (h : rd.Turn s' call s'')
    (hroom : call.room? = some room) : rd.Turn s call s'' := by
  cases h with
  | ready slice h =>
    obtain rfl : slice.length = room := by simpa [ReadAnswer.call, Call.room?] using hroom
    exact .pending slice hp (.ready slice h)
  | pending slice h rest =>
    obtain rfl : slice.length = room := by simpa [ReadAnswer.call, Call.room?] using hroom
    exact .pending slice hp (.pending slice h rest)

/-- A poll that found the writer not ready belongs to the call that it then answers. -/
theorem WaitingWriter.Turn.after_pending {ω : Type} {wr : WaitingWriter ω} {s s' s'' : ω}
    {offered : List UInt8} {call : Call} (hp : wr.poll s offered = (.pending, s'))
    (h : wr.Turn s' call s'') (hoffered : call.offered? = some offered) : wr.Turn s call s'' := by
  cases h with
  | ready h =>
    obtain rfl := by simpa [Call.offered?] using hoffered
    exact .pending hp (.ready h)
  | pending h rest =>
    obtain rfl := by simpa [Call.offered?] using hoffered
    exact .pending hp (.pending h rest)
  | flush => simp [Call.offered?] at hoffered

/-! ## Lists of calls -/

/-- From state `s` on an endpoint answered these calls one after another, up to state `s'`. -/
inductive Served {ε : Type} (turn : ε → Call → ε → Prop) : ε → List Call → ε → Prop
  | nil (s : ε) : Served turn s [] s
  | cons {s s' s'' : ε} {call : Call} {calls : List Call}
      (first : turn s call s') (rest : Served turn s' calls s'') :
      Served turn s (call :: calls) s''

namespace Served

variable {ε : Type} {turn : ε → Call → ε → Prop}

theorem single {s s' : ε} {call : Call} (h : turn s call s') : Served turn s [call] s' :=
  .cons h (.nil s')

theorem append {s s' s'' : ε} {a b : List Call} (h₁ : Served turn s a s')
    (h₂ : Served turn s' b s'') : Served turn s (a ++ b) s'' := by
  induction h₁ with
  | nil => exact h₂
  | cons first _ ih => exact .cons first (ih h₂)

/-- Calls of one endpoint, seen as calls of a larger whole. -/
theorem map {ζ : Type} {turn' : ζ → Call → ζ → Prop} (f : ε → ζ)
    (hf : ∀ {s call s'}, turn s call s' → turn' (f s) call (f s')) {s s' : ε} {calls : List Call}
    (h : Served turn s calls s') : Served turn' (f s) calls (f s') := by
  induction h with
  | nil => exact .nil _
  | cons first _ ih => exact .cons (hf first) ih

/-- What no call delivers or takes over, a list of calls does not either. -/
theorem flatMap_eq_nil {f : Call → List UInt8} {s s' : ε} {calls : List Call}
    (h : Served turn s calls s') (hf : ∀ {s call s'}, turn s call s' → f call = []) :
    calls.flatMap f = [] := by
  induction h with
  | nil => rfl
  | cons first _ ih => rw [List.flatMap_cons, hf first, ih, List.nil_append]

/-- What holds of each single call holds of all calls of a list. -/
theorem forall_mem {p : Call → Prop} {s s' : ε} {calls : List Call} (h : Served turn s calls s')
    (hp : ∀ {s call s'}, turn s call s' → p call) : ∀ call ∈ calls, p call := by
  induction h with
  | nil => simp
  | cons first _ ih => exact List.forall_mem_cons.mpr ⟨hp first, ih⟩

end Served

theorem Reader.Turn.acknowledged {ρ : Type} {rd : Reader ρ} {s s' : ρ} {call : Call}
    (h : rd.Turn s call s') : call.acknowledged = [] := by
  cases h
  rfl

theorem WaitingReader.Turn.acknowledged {ρ : Type} {rd : WaitingReader ρ} {s s' : ρ} {call : Call}
    (h : rd.Turn s call s') : call.acknowledged = [] := by
  cases h <;> rfl

theorem Writer.Turn.delivered {ω : Type} {wr : Writer ω} {s s' : ω} {call : Call}
    (h : wr.Turn s call s') : call.delivered = [] := by
  cases h <;> rfl

theorem WaitingWriter.Turn.delivered {ω : Type} {wr : WaitingWriter ω} {s s' : ω} {call : Call}
    (h : wr.Turn s call s') : call.delivered = [] := by
  cases h <;> rfl

end RingRelay
