import RingRelay.Endpoint.Script
import RingRelay.Proofs.Endpoint.Settled
import RingRelay.Proofs.Ring.Flow
/- Rings that hold the same.

   `Ring.Same` compares two rings by what their users can know of them: capacity, head and live
   bytes. Their other cells may hold anything. A reader gets to write into these cells, and what it
   leaves there becomes live as far as it reports it, so two such rings stay the same only if the
   reader writes every byte that it reports (`Reader.Fills`). Then every operation and every
   transfer shows the same on both and leaves them the same. -/
namespace RingRelay

/-- Both rings hold the same bytes in the same cells, and differ at most in cells that are not
    live. -/
structure Ring.Same (ring ring' : Ring) : Prop where
  capacity : ring'.capacity = ring.capacity
  position : ring'.position = ring.position
  contents : ring'.contents = ring.contents

/-- Of the bytes that the answer reports, each one was left in its cell. -/
def ReadAnswer.Fills (answer : ReadAnswer) (room : Nat) : Prop :=
  ∀ n, answer.result = .ok n → n ≤ room → ∀ i < n, ∃ byte, answer.stores[i]? = some (some byte)

/-- A reader that writes every byte that it reports. -/
def Reader.Fills {ρ : Type} (rd : Reader ρ) : Prop :=
  ∀ source room, (rd.read source room).1.Fills room

def WaitingReader.Fills {ρ : Type} (rd : WaitingReader ρ) : Prop :=
  ∀ {source later room answer}, rd.poll source room = (.ready answer, later) → answer.Fills room

theorem WaitingReader.Fills.settled {ρ : Type} {rd : WaitingReader ρ} (h : rd.Fills) :
    rd.settled.Fills := by
  intro source room
  show (rd.answer source room).1.Fills room
  fun_induction rd.answer source room with
  | case1 _ _ _ ih => exact ih
  | case2 source answer later hp => exact h hp

namespace ReadScript

theorem fills_delivery (bytes : List UInt8) (room : Nat) : (delivery bytes).Fills room := by
  intro n hn _ i hi
  obtain rfl : bytes.length = n := by simpa [delivery] using hn
  exact ⟨bytes[i], by simp [delivery, hi]⟩

theorem fills_of_ok_zero {stores : List (Option UInt8)} (room : Nat) :
    ReadAnswer.Fills ⟨stores, .ok 0⟩ room := by
  intro n hn _ i hi
  obtain rfl : 0 = n := by simpa using hn
  omega

theorem fills_of_error {stores : List (Option UInt8)} {cause : IoError} (room : Nat) :
    ReadAnswer.Fills ⟨stores, .error cause⟩ room := by
  intro n hn
  simp at hn

/-- A scripted reader writes every byte that it reports, also where its report is made up. -/
theorem fills_reader : reader.Fills := by
  intro script room
  show (read script room).1.Fills room
  fun_induction read script room with
  | case1 => exact fills_of_ok_zero _
  | case2 _ _ ih => exact ih
  | case3 => exact fills_delivery _ _
  | case4 => exact fills_of_ok_zero _
  | case5 => exact fills_of_error _
  | case6 count rest room =>
    intro n hn hle i hi
    obtain rfl : count = n := by simpa using hn
    have hstored : i < min count room := by omega
    exact ⟨filler, by simp [hstored]⟩

theorem fills_waitingReader : waitingReader.Fills := by
  intro script later room answer h
  replace h : poll script room = (.ready answer, later) := h
  unfold poll at h
  split at h
  · obtain ⟨rfl, -⟩ := by simpa using h
    exact fills_of_ok_zero _
  · simp at h
  · obtain ⟨rfl, -⟩ := by simpa using h
    exact fills_delivery _ _
  · obtain ⟨rfl, -⟩ := by simpa using h
    exact fills_of_ok_zero _
  · obtain ⟨rfl, -⟩ := by simpa using h
    exact fills_of_error _
  · obtain ⟨rfl, -⟩ := by simpa using h
    exact fills_delivery _ _

end ReadScript

/-- The first cells of a slice after edits that reach all of them do not depend on the slice. -/
theorem Cells.take_overlay_congr {slice slice' : List UInt8} {edits : List (Option UInt8)} {n : Nat}
    (hlength : slice'.length = slice.length)
    (hedits : ∀ i < n, ∃ byte, edits[i]? = some (some byte)) :
    (overlay slice' edits).take n = (overlay slice edits).take n := by
  apply List.ext_getElem?
  intro i
  rw [List.getElem?_take, List.getElem?_take]
  split
  · next hi =>
    obtain ⟨byte, hbyte⟩ := hedits i hi
    by_cases hlive : i < slice.length
    · rw [getElem?_overlay _ _ (by omega), getElem?_overlay _ _ hlive, hbyte]
      rfl
    · rw [List.getElem?_eq_none (by rw [length_overlay]; omega),
        List.getElem?_eq_none (by rw [length_overlay]; omega)]
  · rfl

theorem ReadAnswer.call_congr {answer : ReadAnswer} {slice slice' : List UInt8}
    (hlength : slice'.length = slice.length) (hfills : answer.Fills slice.length) :
    answer.call slice' = answer.call slice := by
  obtain ⟨stores, result⟩ := answer
  unfold ReadAnswer.call ReadAnswer.delivered
  cases result with
  | error cause => simp only [hlength]
  | ok n =>
    simp only [hlength]
    split
    · next hle => rw [Cells.take_overlay_congr hlength (hfills n rfl hle)]
    · rfl

namespace Ring.Same

variable {ring ring' : Ring}

theorem size (h : ring.Same ring') : ring'.size = ring.size := by
  rw [← length_contents, h.contents, length_contents]

theorem remaining (h : ring.Same ring') : ring'.remaining = ring.remaining := by
  rw [Ring.remaining, h.capacity, h.size]
  rfl

theorem readableRun (h : ring.Same ring') : ring'.readableRun = ring.readableRun := by
  rw [Ring.readableRun, h.capacity, h.position, h.size]
  rfl

theorem writableRun (h : ring.Same ring') : ring'.writableRun = ring.writableRun := by
  rw [Ring.writableRun, h.capacity, h.position, h.size]
  rfl

theorem readable (h : ring.Same ring') : ring'.readable = ring.readable := by
  rw [readable_eq_take, h.contents, h.readableRun, ← readable_eq_take]

theorem summary (h : ring.Same ring') : ring'.summary = ring.summary := by
  unfold Ring.summary
  rw [h.capacity, h.position, h.size]

/-- By the same calls two rings that hold the same become two that hold the same. -/
theorem of_balanced {last last' : Ring} {calls : List Call} (h : ring.Same ring')
    (hb : Balanced ring calls last) (hb' : Balanced ring' calls last') : last.Same last' where
  capacity := by rw [hb'.capacity, hb.capacity, h.capacity]
  position := by rw [hb'.position, hb.position, h.position, h.capacity]
  contents := by
    have hconserves := hb'.conserves
    rw [h.contents, ← hb.conserves] at hconserves
    exact List.append_cancel_left hconserves

/-! ## Bulk operations -/

theorem empty (h : ring.capacity = ring'.capacity) : ring.empty.Same ring'.empty where
  capacity := h.symm
  position := rfl
  contents := by rw [contents_empty, contents_empty]

theorem consume (h : ring.Same ring') {n : Nat} (hn : n ≤ ring.size) (hn' : n ≤ ring'.size) :
    (ring.consume n hn).Same (ring'.consume n hn') where
  capacity := h.capacity
  position := by
    show (ring'.position + n) % ring'.capacity = (ring.position + n) % ring.capacity
    rw [h.position, h.capacity]
  contents := by rw [contents_consume, contents_consume, h.contents]

theorem oldest (h : ring.Same ring') {len : Nat} (hlen : len ≤ ring.size) :
    ring'.oldest len = ring.oldest len := by
  rw [oldest_eq_take ring' (h.size ▸ hlen), oldest_eq_take ring hlen, h.contents]

theorem of_write (h : ring.Same ring') {bytes : List UInt8} {later later' : Ring}
    (hw : ring.write bytes = .ok later) (hw' : ring'.write bytes = .ok later') :
    later.Same later' where
  capacity := by rw [(cursors_of_write hw').1, (cursors_of_write hw).1, h.capacity]
  position := by rw [(cursors_of_write hw').2, (cursors_of_write hw).2, h.position]
  contents := by rw [contents_of_write hw', contents_of_write hw, h.contents]

end Ring.Same

/-! ## One answer -/

/-- Two absorbed answers that show the same and leave rings that hold the same. -/
structure Absorbed.Alike (a a' : Absorbed) : Prop where
  ring : a.ring.Same a'.ring
  moved : a'.moved = a.moved
  call : a'.call = a.call
  events : a'.events = a.events
  step : a'.step = a.step

/-- Two transfers that show the same, also to their endpoints, and leave rings that hold the
    same. -/
structure Transfer.Alike {ε : Type} (t t' : Transfer ε) : Prop where
  ring : t.ring.Same t'.ring
  result : t'.result = t.result
  endpoint : t'.endpoint = t.endpoint
  calls : t'.calls = t.calls
  events : t'.events = t.events

namespace Transfer.Alike

variable {ε : Type} {t t' : Transfer ε} {a a' : Absorbed}

theorem after (h : t.Alike t') (ha : a.Alike a') : (t.after a).Alike (t'.after a') where
  ring := h.ring
  result := h.result
  endpoint := h.endpoint
  calls := by
    show a'.call :: t'.calls = a.call :: t.calls
    rw [ha.call, h.calls]
  events := by
    show a'.events ++ t'.events = a.events ++ t.events
    rw [ha.events, h.events]

theorem finish (ha : a.Alike a') (endpoint : ε) (result : Except RingError Nat) :
    (a.finish endpoint result).Alike (a'.finish endpoint result) where
  ring := ha.ring
  result := rfl
  endpoint := rfl
  calls := by
    show [a'.call] = [a.call]
    rw [ha.call]
  events := ha.events

end Transfer.Alike

namespace Ring.Same

variable {ring ring' : Ring}

theorem absorbRead (h : ring.Same ring') {answer : ReadAnswer}
    (hfills : answer.Fills ring.writableRun) (total : Nat) :
    (ring.absorbRead answer total).Alike (ring'.absorbRead answer total) := by
  have hcall : (ring'.absorbRead answer total).call = (ring.absorbRead answer total).call := by
    rw [call_absorbRead, call_absorbRead]
    apply ReadAnswer.call_congr
    · rw [length_writable, length_writable, h.writableRun]
    · rwa [length_writable]
  have hbalanced := (moves_absorbRead ring answer total).toBalanced
  have hbalanced' := (moves_absorbRead ring' answer total).toBalanced
  rw [hcall] at hbalanced'
  have hring := h.of_balanced hbalanced hbalanced'
  -- What is left depends on the ring by the length of its free row only.
  have hrun := h.writableRun
  refine ⟨hring, ?_, hcall, ?_, ?_⟩
  all_goals
    unfold Ring.absorbRead
    cases answer.result with
    | error cause => rfl
    | ok n => by_cases hle : n ≤ ring.writableRun <;> simp [hrun, hle]

theorem absorbWrite (h : ring.Same ring') (answer : WriteAnswer) (total : Nat) :
    (ring.absorbWrite answer total).Alike (ring'.absorbWrite answer total) := by
  have hcall : (ring'.absorbWrite answer total).call = (ring.absorbWrite answer total).call := by
    rw [call_absorbWrite, call_absorbWrite, h.readable]
  have hbalanced := (moves_absorbWrite ring answer total).toBalanced
  have hbalanced' := (moves_absorbWrite ring' answer total).toBalanced
  rw [hcall] at hbalanced'
  have hring := h.of_balanced hbalanced hbalanced'
  have hrun := h.readableRun
  refine ⟨hring, ?_, hcall, ?_, ?_⟩
  all_goals
    unfold Ring.absorbWrite
    cases answer with
    | error cause => rfl
    | ok n => by_cases hle : n ≤ ring.readableRun <;> simp [hrun, hle]

/-! ## Transfers -/

section Loops

variable {ρ ω : Type}

theorem idle {ε : Type} (h : ring.Same ring') (endpoint : ε) (total : Nat) :
    (ring.idle endpoint total).Alike (ring'.idle endpoint total) :=
  ⟨h, rfl, rfl, rfl, rfl⟩

/-- A reader that is asked for the free row of both rings is asked the same, and leaves them the
    same. -/
theorem read_alike (h : ring.Same ring') {rd : Reader ρ} (hfills : rd.Fills) {source later : ρ}
    {answer : ReadAnswer} (total : Nat) (hread : rd.read source ring.writableRun = (answer, later)) :
    rd.read source ring'.writableRun = (answer, later) ∧
      (ring.absorbRead answer total).Alike (ring'.absorbRead answer total) := by
  have hanswer := hfills source ring.writableRun
  rw [hread] at hanswer
  rw [h.writableRun]
  exact ⟨hread, h.absorbRead hanswer total⟩

theorem fillFrom (h : ring.Same ring') {rd : Reader ρ} (hfills : rd.Fills) (source : ρ)
    (total : Nat) :
    (Ring.fillFrom rd ring source total).Alike (Ring.fillFrom rd ring' source total) := by
  fun_induction Ring.fillFrom rd ring source total generalizing ring' with
  | case1 ring source total hrun reply a ha =>
    rename_i ih
    obtain ⟨hread, halike⟩ := h.read_alike hfills total (Prod.eta reply).symm
    rw [fillFrom_of_read total (h.writableRun ▸ hrun) hread, halike.step.trans ha, halike.moved]
    exact (ih halike.ring).after halike
  | case2 ring source total hrun reply a =>
    rename_i ha
    obtain ⟨hread, halike⟩ := h.read_alike hfills total (Prod.eta reply).symm
    rw [fillFrom_of_read total (h.writableRun ▸ hrun) hread, halike.step.trans ha, halike.moved]
    exact .finish halike _ _
  | case3 ring source total hrun reply a error =>
    rename_i ha
    obtain ⟨hread, halike⟩ := h.read_alike hfills total (Prod.eta reply).symm
    rw [fillFrom_of_read total (h.writableRun ▸ hrun) hread, halike.step.trans ha]
    exact .finish halike _ _
  | case4 ring source total hrun =>
    rw [fillFrom_of_full source total (h.writableRun ▸ hrun)]
    exact h.idle source total

theorem drainFrom (h : ring.Same ring') (wr : Writer ω) (sink : ω) (total : Nat) :
    (Ring.drainFrom wr ring sink total).Alike (Ring.drainFrom wr ring' sink total) := by
  fun_induction Ring.drainFrom wr ring sink total generalizing ring' with
  | case1 ring sink total hrun reply a ha =>
    rename_i ih
    have hwrite : wr.write sink ring'.readable = reply := by rw [h.readable]
    have halike := h.absorbWrite reply.1 total
    rw [drainFrom_of_write total (h.readableRun ▸ hrun) hwrite, halike.step.trans ha, halike.moved]
    exact (ih halike.ring).after halike
  | case2 ring sink total hrun reply a =>
    rename_i ha
    have hwrite : wr.write sink ring'.readable = reply := by rw [h.readable]
    have halike := h.absorbWrite reply.1 total
    rw [drainFrom_of_write total (h.readableRun ▸ hrun) hwrite, halike.step.trans ha, halike.moved]
    exact .finish halike _ _
  | case3 ring sink total hrun reply a error =>
    rename_i ha
    have hwrite : wr.write sink ring'.readable = reply := by rw [h.readable]
    have halike := h.absorbWrite reply.1 total
    rw [drainFrom_of_write total (h.readableRun ▸ hrun) hwrite, halike.step.trans ha]
    exact .finish halike _ _
  | case4 ring sink total hrun =>
    rw [drainFrom_of_empty sink total (h.readableRun ▸ hrun)]
    exact h.idle sink total

theorem fill (h : ring.Same ring') {rd : Reader ρ} (hfills : rd.Fills) (source : ρ) :
    (ring.fill rd source).Alike (ring'.fill rd source) :=
  h.fillFrom hfills source 0

theorem fillWaiting (h : ring.Same ring') {rd : WaitingReader ρ} (hfills : rd.Fills)
    (source : ρ) : (ring.fillWaiting rd source).Alike (ring'.fillWaiting rd source) := by
  unfold Ring.fillWaiting
  rw [fillWaitingFrom_eq_settled, fillWaitingFrom_eq_settled]
  exact h.fillFrom hfills.settled source 0

theorem drain (h : ring.Same ring') (wr : Writer ω) (sink : ω) :
    (ring.drain wr sink).Alike (ring'.drain wr sink) :=
  h.drainFrom wr sink 0

theorem drainWaiting (h : ring.Same ring') (wr : WaitingWriter ω) (sink : ω) :
    (ring.drainWaiting wr sink).Alike (ring'.drainWaiting wr sink) := by
  unfold Ring.drainWaiting
  rw [drainWaitingFrom_eq_settled, drainWaitingFrom_eq_settled]
  exact h.drainFrom wr.settled sink 0

end Loops

end Ring.Same

end RingRelay
