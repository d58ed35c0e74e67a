import RingRelay.Endpoint.Script
import RingRelay.Proofs.Endpoint.Settled
import RingRelay.Proofs.Ring.Flow
/- Scripts acted out with and without pauses.

   A script says "not ready" in steps of its own. The endpoint that answers every call passes over
   them and the endpoint that may not be ready gives each of them as an answer, so for a transfer
   both come to the same, and so do two scripts that differ in such steps only
   (`transfers_of_scripts`). One thing sets the two readers apart: a reader that may not be ready
   cannot report more than there is room for (`settled_read`). -/
namespace RingRelay

/-- The transfer with another look at its endpoint. -/
def Transfer.map {ε ε' : Type} (f : ε → ε') (t : Transfer ε) : Transfer ε' :=
  ⟨t.result, t.ring, f t.endpoint, t.calls, t.events⟩

/-- The call is no read that reports more than there was room for. -/
def Call.Fits : Call → Prop
  | .read room (.ok n) _ => n ≤ room
  | _ => True

/-- The answer does not report more than there was room for. -/
def ReadAnswer.Fits (answer : ReadAnswer) (room : Nat) : Prop :=
  ∀ n, answer.result = .ok n → n ≤ room

/-- The answer with its report cut down to the room there was. -/
def ReadAnswer.clamp (answer : ReadAnswer) (room : Nat) : ReadAnswer :=
  { answer with result := answer.result.map (min · room) }

theorem ReadAnswer.clamp_of_fits {answer : ReadAnswer} {room : Nat} (h : answer.Fits room) :
    answer.clamp room = answer := by
  obtain ⟨stores, result⟩ := answer
  cases result with
  | error cause => rfl
  | ok n =>
    have hle : n ≤ room := h n rfl
    simp [clamp, Except.map, Nat.min_eq_left hle]

theorem ReadAnswer.fits_clamp (answer : ReadAnswer) (room : Nat) :
    (answer.clamp room).Fits room := by
  intro n h
  obtain ⟨stores, result⟩ := answer
  cases result with
  | error cause => simp [clamp, Except.map] at h
  | ok m =>
    obtain rfl : min m room = n := by simpa [clamp, Except.map] using h
    exact Nat.min_le_right m room

namespace Ring

/-! ## Endpoints that answer alike -/

theorem fits_absorbRead_iff {ring : Ring} {answer : ReadAnswer} {total : Nat} :
    (ring.absorbRead answer total).call.Fits ↔ answer.Fits ring.writableRun := by
  rw [call_absorbRead_eq]
  obtain ⟨stores, result⟩ := answer
  cases result with
  | error cause => simp [Call.Fits, ReadAnswer.Fits]
  | ok n => simp [Call.Fits, ReadAnswer.Fits]

variable {ρ ρ' ω ω' : Type}

/-- A fill from another look at a source, by a reader that answers to it alike. -/
theorem fillFrom_map {rd : Reader ρ} {rd' : Reader ρ'} {f : ρ → ρ'}
    (h : ∀ source room,
      rd'.read (f source) room = ((rd.read source room).1, f (rd.read source room).2))
    (ring : Ring) (source : ρ) (total : Nat) :
    fillFrom rd' ring (f source) total = (fillFrom rd ring source total).map f := by
  fun_induction fillFrom rd ring source total with
  | case1 ring source total hrun reply a ha ih =>
    rw [fillFrom_of_read total hrun (h source _)]
    simp only [show (ring.absorbRead (rd.read source ring.writableRun).1 total).step = .more
      from ha]
    exact congrArg (Transfer.after · a) ih
  | case2 ring source total hrun reply a ha =>
    rw [fillFrom_of_read total hrun (h source _)]
    simp only [show (ring.absorbRead (rd.read source ring.writableRun).1 total).step = .done
      from ha]
    rfl
  | case3 ring source total hrun reply a error ha =>
    rw [fillFrom_of_read total hrun (h source _)]
    simp only [show (ring.absorbRead (rd.read source ring.writableRun).1 total).step =
      .failed error from ha]
    rfl
  | case4 ring source total hrun =>
    rw [fillFrom_of_full (f source) total hrun]
    rfl

/-- A drain to another look at a sink, by a writer that answers to it alike. -/
theorem drainFrom_map {wr : Writer ω} {wr' : Writer ω'} {f : ω → ω'}
    (h : ∀ sink offered,
      wr'.write (f sink) offered = ((wr.write sink offered).1, f (wr.write sink offered).2))
    (ring : Ring) (sink : ω) (total : Nat) :
    drainFrom wr' ring (f sink) total = (drainFrom wr ring sink total).map f := by
  fun_induction drainFrom wr ring sink total with
  | case1 ring sink total hrun reply a ha ih =>
    rw [drainFrom_of_write total hrun (h sink _)]
    simp only [show (ring.absorbWrite (wr.write sink ring.readable).1 total).step = .more from ha]
    exact congrArg (Transfer.after · a) ih
  | case2 ring sink total hrun reply a ha =>
    rw [drainFrom_of_write total hrun (h sink _)]
    simp only [show (ring.absorbWrite (wr.write sink ring.readable).1 total).step = .done from ha]
    rfl
  | case3 ring sink total hrun reply a error ha =>
    rw [drainFrom_of_write total hrun (h sink _)]
    simp only [show (ring.absorbWrite (wr.write sink ring.readable).1 total).step =
      .failed error from ha]
    rfl
  | case4 ring sink total hrun =>
    rw [drainFrom_of_empty (f sink) total hrun]
    rfl

/-- Two readers that differ only in reports above the room fill alike up to such a report. -/
theorem fillFrom_congr_of_fits {rd rd' : Reader ρ}
    (h : ∀ source room, (rd.read source room).1.Fits room →
      rd'.read source room = rd.read source room)
    {ring : Ring} {source : ρ} {total : Nat}
    (hfits : ∀ call ∈ (fillFrom rd ring source total).calls, call.Fits) :
    fillFrom rd' ring source total = fillFrom rd ring source total := by
  fun_induction fillFrom rd ring source total with
  | case1 ring source total hrun reply a ha ih =>
    have hfirst : a.call.Fits := hfits a.call (List.mem_cons_self ..)
    have hrest := ih fun call hcall => hfits call (List.mem_cons_of_mem _ hcall)
    rw [fillFrom_of_read total hrun (h source _ (fits_absorbRead_iff.mp hfirst))]
    simp only [show (ring.absorbRead (rd.read source ring.writableRun).1 total).step = .more
      from ha]
    exact congrArg (Transfer.after · a) hrest
  | case2 ring source total hrun reply a ha =>
    have hfirst : a.call.Fits := hfits a.call (List.mem_cons_self ..)
    rw [fillFrom_of_read total hrun (h source _ (fits_absorbRead_iff.mp hfirst))]
    simp only [show (ring.absorbRead (rd.read source ring.writableRun).1 total).step = .done
      from ha]
    rfl
  | case3 ring source total hrun reply a error ha =>
    have hfirst : a.call.Fits := hfits a.call (List.mem_cons_self ..)
    rw [fillFrom_of_read total hrun (h source _ (fits_absorbRead_iff.mp hfirst))]
    simp only [show (ring.absorbRead (rd.read source ring.writableRun).1 total).step =
      .failed error from ha]
    rfl
  | case4 ring source total hrun => rw [fillFrom_of_full source total hrun]

end Ring

theorem Reader.Turn.fits {ρ : Type} {rd : Reader ρ}
    (h : ∀ source room, (rd.read source room).1.Fits room) {s s' : ρ} {call : Call}
    (hturn : rd.Turn s call s') : call.Fits := by
  cases hturn with
  | @read _ answer slice hread =>
    have hfits := h s slice.length
    rw [hread] at hfits
    obtain ⟨stores, result⟩ := answer
    cases result with
    | error cause => trivial
    | ok n => exact hfits n rfl

/-! ## Scripts -/

def ReadStep.isReady : ReadStep → Bool
  | .notReady => false
  | _ => true

def WriteStep.isReady : WriteStep → Bool
  | .notReady => false
  | _ => true

namespace ReadScript

/-- The script without its pauses. -/
def active (script : ReadScript) : ReadScript := script.filter ReadStep.isReady

theorem active_putBack_append (bytes : List UInt8) (rest : ReadScript) :
    active (putBack bytes ++ rest) = putBack bytes ++ active rest := by
  unfold putBack
  split
  · rfl
  · exact List.filter_cons_of_pos rfl

/-- Without its pauses a script gives the same answers. -/
theorem read_active (script : ReadScript) (room : Nat) :
    read (active script) room = ((read script room).1, active (read script room).2) := by
  induction script with
  | nil => rfl
  | cons step rest ih =>
    cases step with
    | data bytes =>
      show (_, putBack (bytes.drop room) ++ active rest) = _
      rw [← active_putBack_append]
      rfl
    | eof => rfl
    | fail cause => rfl
    | report count => rfl
    | notReady => exact ih

theorem clamp_delivery {bytes : List UInt8} {room : Nat} (h : bytes.length ≤ room) :
    (delivery bytes).clamp room = delivery bytes := by
  apply ReadAnswer.clamp_of_fits
  rintro n ⟨rfl⟩
  exact h

theorem settled_of_ready {script later : ReadScript} {room : Nat} {answer : ReadAnswer}
    (h : poll script room = (.ready answer, later)) :
    waitingReader.settled.read script room = (answer, later) := WaitingReader.settled_of_ready h

/-- The answer that the reader which may not be ready gives in the end. -/
theorem settled_read (script : ReadScript) (room : Nat) :
    waitingReader.settled.read script room =
      ((read script room).1.clamp room, (read script room).2) := by
  have hend : atEnd.clamp room = atEnd := @clamp_delivery [] room (Nat.zero_le room)
  induction script with
  | nil =>
    rw [read, hend]
    exact settled_of_ready rfl
  | cons step rest ih =>
    cases step with
    | data bytes =>
      rw [read, clamp_delivery (List.length_take_le room bytes)]
      exact settled_of_ready rfl
    | eof =>
      rw [read, hend]
      exact settled_of_ready rfl
    | fail cause => exact settled_of_ready rfl
    | report count =>
      have hclamp : ReadAnswer.clamp ⟨List.replicate (min count room) (some filler), .ok count⟩ room =
          delivery (List.replicate (min count room) filler) := by
        simp [delivery, ReadAnswer.clamp, Except.map]
      rw [read, hclamp]
      exact settled_of_ready rfl
    | notReady =>
      have hskip : waitingReader.settled.read (.notReady :: rest) room =
          waitingReader.settled.read rest room := WaitingReader.settled_of_pending rfl
      rw [hskip, ih, read]

theorem settled_read_of_fits {script : ReadScript} {room : Nat}
    (h : (read script room).1.Fits room) :
    waitingReader.settled.read script room = read script room := by
  rw [settled_read, ReadAnswer.clamp_of_fits h]

theorem settled_read_active (script : ReadScript) (room : Nat) :
    waitingReader.settled.read (active script) room =
      ((waitingReader.settled.read script room).1,
        active (waitingReader.settled.read script room).2) := by
  rw [settled_read, settled_read, read_active]

end ReadScript

namespace WriteScript

/-- The script without its pauses. -/
def active (script : WriteScript) : WriteScript :=
  { script with steps := script.steps.filter WriteStep.isReady }

theorem answer_active (atMost : Option Nat) (offered : List UInt8) (steps : List WriteStep) :
    answer atMost offered (steps.filter WriteStep.isReady) =
      ((answer atMost offered steps).1,
        (answer atMost offered steps).2.filter WriteStep.isReady) := by
  induction steps with
  | nil => rfl
  | cons step rest ih =>
    cases step with
    | accept count => rfl
    | fail cause => rfl
    | report count => rfl
    | notReady => exact ih

theorem write_active (script : WriteScript) (offered : List UInt8) :
    write (active script) offered = ((write script offered).1, active (write script offered).2) := by
  show ((answer script.atMost offered (script.steps.filter WriteStep.isReady)).1, _) = _
  unfold write active
  simp only [answer_active]

theorem settled_of_ready {script later : WriteScript} {offered : List UInt8}
    {result : WriteAnswer} (h : poll script offered = (.ready result, later)) :
    waitingWriter.settled.write script offered = (result, later) :=
  WaitingWriter.settled_of_ready h

/-- The writer that may not be ready is in the end the one that answers every call. -/
theorem settled_waitingWriter : waitingWriter.settled = writer := by
  have hwrite : waitingWriter.answer = write := by
    funext script offered
    obtain ⟨steps, atMost, flushes⟩ := script
    induction steps with
    | nil => exact settled_of_ready rfl
    | cons step rest ih =>
      cases step with
      | accept count => exact settled_of_ready rfl
      | fail cause => exact settled_of_ready rfl
      | report count => exact settled_of_ready rfl
      | notReady =>
        have hskip : waitingWriter.settled.write ⟨.notReady :: rest, atMost, flushes⟩ offered =
            waitingWriter.settled.write ⟨rest, atMost, flushes⟩ offered :=
          WaitingWriter.settled_of_pending rfl
        exact hskip.trans ih
  rw [WaitingWriter.settled, hwrite]
  rfl

end WriteScript

namespace Ring

variable (ring : Ring)

/-- Both readers of a script fill alike exactly as long as no call reports more than there was room
    for. -/
theorem fillWaiting_eq_fill_iff (script : ReadScript) :
    ring.fillWaiting ReadScript.waitingReader script = ring.fill ReadScript.reader script ↔
      ∀ call ∈ (ring.fill ReadScript.reader script).calls, call.Fits := by
  unfold fillWaiting fill
  rw [fillWaitingFrom_eq_settled]
  constructor
  · -- What the reader that may not be ready reports is never more than there is room for.
    intro h
    rw [← h]
    have hserved := served_fillFrom ReadScript.waitingReader.settled ring script 0
    refine hserved.forall_mem (Reader.Turn.fits ?_)
    intro source room
    rw [ReadScript.settled_read]
    exact ReadAnswer.fits_clamp _ room
  · intro hfits
    apply fillFrom_congr_of_fits _ hfits
    intro source room hroom
    exact ReadScript.settled_read_of_fits hroom

theorem drainWaiting_eq_drain (script : WriteScript) :
    ring.drainWaiting WriteScript.waitingWriter script = ring.drain WriteScript.writer script := by
  unfold drainWaiting drain
  rw [drainWaitingFrom_eq_settled, WriteScript.settled_waitingWriter]

theorem fill_active (script : ReadScript) :
    ring.fill ReadScript.reader script.active =
      (ring.fill ReadScript.reader script).map ReadScript.active :=
  fillFrom_map ReadScript.read_active ring script 0

theorem fillWaiting_active (script : ReadScript) :
    ring.fillWaiting ReadScript.waitingReader script.active =
      (ring.fillWaiting ReadScript.waitingReader script).map ReadScript.active := by
  unfold fillWaiting
  rw [fillWaitingFrom_eq_settled, fillWaitingFrom_eq_settled]
  exact fillFrom_map ReadScript.settled_read_active ring script 0

theorem drain_active (script : WriteScript) :
    ring.drain WriteScript.writer script.active =
      (ring.drain WriteScript.writer script).map WriteScript.active :=
  drainFrom_map WriteScript.write_active ring script 0

/-- A script that is acted out by a reader that answers every call and by one that may not be ready
    comes to one and the same fill: result, ring, calls, events and what is left of the script. That
    is so exactly as long as no call reports more than there was room for; of a writer it is always
    so. Scripts that differ in their pauses only come to the same transfers as well, and to what is
    left of the one and of the other, which again differ in their pauses only. -/
theorem transfers_of_scripts (reads : ReadScript) (writes : WriteScript) :
    (ring.fillWaiting ReadScript.waitingReader reads = ring.fill ReadScript.reader reads ↔
        ∀ call ∈ (ring.fill ReadScript.reader reads).calls, call.Fits) ∧
      ring.drainWaiting WriteScript.waitingWriter writes = ring.drain WriteScript.writer writes ∧
      (∀ reads' : ReadScript, reads'.active = reads.active →
        (ring.fill ReadScript.reader reads').map ReadScript.active =
            (ring.fill ReadScript.reader reads).map ReadScript.active ∧
          (ring.fillWaiting ReadScript.waitingReader reads').map ReadScript.active =
            (ring.fillWaiting ReadScript.waitingReader reads).map ReadScript.active) ∧
      ∀ writes' : WriteScript, writes'.active = writes.active →
        (ring.drain WriteScript.writer writes').map WriteScript.active =
            (ring.drain WriteScript.writer writes).map WriteScript.active ∧
          (ring.drainWaiting WriteScript.waitingWriter writes').map WriteScript.active =
            (ring.drainWaiting WriteScript.waitingWriter writes).map WriteScript.active := by
  refine ⟨ring.fillWaiting_eq_fill_iff reads, ring.drainWaiting_eq_drain writes, ?_, ?_⟩
  · intro reads' h
    constructor
    · rw [← fill_active, ← fill_active, h]
    · rw [← fillWaiting_active, ← fillWaiting_active, h]
  · intro writes' h
    rw [drainWaiting_eq_drain, drainWaiting_eq_drain, ← drain_active, ← drain_active, h]
    exact ⟨rfl, rfl⟩

/-- Pauses before, between and behind the calls of a fill of one cell and of a drain that goes around
    the end of the array to a writer that claims too much. -/
theorem transfers_of_scripts_paused :
    aroundEnd.fillWaiting ReadScript.waitingReader [.notReady, .report 1, .notReady, .eof] =
        aroundEnd.fill ReadScript.reader [.notReady, .report 1, .notReady, .eof] ∧
      (aroundEnd.fill ReadScript.reader [.report 1, .eof, .notReady]).map ReadScript.active =
        (aroundEnd.fill ReadScript.reader [.notReady, .report 1, .notReady, .eof]).map
          ReadScript.active ∧
      (aroundEnd.drainWaiting WriteScript.waitingWriter
          ⟨[.accept 1, .notReady, .notReady, .report 9], none, []⟩).map WriteScript.active =
        (aroundEnd.drainWaiting WriteScript.waitingWriter
          ⟨[.notReady, .accept 1, .report 9], none, []⟩).map WriteScript.active := by
  obtain ⟨hfits, _, hreads, hwrites⟩ :=
    transfers_of_scripts aroundEnd [.notReady, .report 1, .notReady, .eof]
      ⟨[.notReady, .accept 1, .report 9], none, []⟩
  refine ⟨hfits.mpr ?_, (hreads [.report 1, .eof, .notReady] rfl).1,
    (hwrites ⟨[.accept 1, .notReady, .notReady, .report 9], none, []⟩ rfl).2⟩
  have hread : ReadScript.reader.read [.notReady, .report 1, .notReady, .eof]
      aroundEnd.writableRun = (⟨[some ReadScript.filler], .ok 1⟩, [.notReady, .eof]) := rfl
  have hstep : (aroundEnd.absorbRead ⟨[some ReadScript.filler], .ok 1⟩ 0).step = .more := rfl
  rw [fill, fillFrom_of_read 0 (by decide) hread, hstep]
  simp only
  rw [fillFrom_of_full _ _ (by decide)]
  intro call hcall
  obtain rfl := List.mem_singleton.mp hcall
  exact Nat.le_refl 1

end Ring

end RingRelay
