import Mathlib.Algebra.GroupWithZero.Nat
import RingRelay.Proofs.Endpoint.Settled
import RingRelay.Proofs.Ring.Answers
/- What a transfer reports.

   A transfer reports every call that was answered with a count, in order, and then at most one event
   more, which says why it went no further: the end of the stream, a count below the size of the
   slice, or the failure it returns (`Recorded`). A call that the transfer goes on behind was answered
   in full (`Call.Whole`) and adds nothing but its own event, so the report of a transfer is that of
   its last call with those of the calls before it in front. -/
namespace RingRelay

/-- The event by which a call is reported that was answered with a count. -/
def Call.trace? : Call → Option Event
  | .read room (.ok n) _ => some (.readReturned room n)
  | .write offered (.ok n) => some (.writeReturned offered.length n)
  | _ => none

/-- The count that an event is about, if it is not above the size of the slice. -/
def Event.accepted : Event → Nat
  | .readReturned requested transferred => if transferred ≤ requested then transferred else 0
  | .writeReturned offered transferred => if transferred ≤ offered then transferred else 0
  | _ => 0

/-- The last event of a transfer that made these calls and returned this, besides those of the calls
    themselves. -/
structure Recorded (calls : List Call) (result : Except RingError Nat) (terminal : Option Event) :
    Prop where
  endOfStream_iff : ∀ total, terminal = some (.endOfStream total) ↔
    (∃ room bytes, .read room (.ok 0) bytes ∈ calls) ∧ result = .ok total
  shortRead_iff : ∀ room n, terminal = some (.shortRead room n) ↔
    0 < n ∧ n < room ∧ ∃ bytes, calls.getLast? = some (.read room (.ok n) bytes)
  shortWrite_iff : ∀ room n, terminal = some (.shortWrite room n) ↔
    n < room ∧ ∃ offered, offered.length = room ∧ calls.getLast? = some (.write offered (.ok n))
  failed_iff : ∀ direction transferred cause,
    terminal = some (.endpointFailed direction transferred cause) ↔
      result = .error (.endpoint direction transferred cause)
  level : ∀ event ∈ terminal, event.level = .debug ∨ event.level = .warn
  target : ∀ event ∈ terminal, event.target = "bytering.ring"

theorem Call.of_trace? {call : Call} {event : Event} (h : call.trace? = some event) :
    event.level = .trace ∧ event.target = "bytering.ring" := by
  unfold trace? at h
  split at h
  · obtain rfl := Option.some.inj h
    exact ⟨rfl, rfl⟩
  · obtain rfl := Option.some.inj h
    exact ⟨rfl, rfl⟩
  · cases h

theorem Event.of_mem_traces {calls : List Call} {event : Event}
    (h : event ∈ calls.filterMap Call.trace?) :
    event.level = .trace ∧ event.target = "bytering.ring" := by
  obtain ⟨call, _, htrace⟩ := List.mem_filterMap.mp h
  exact Call.of_trace? htrace

theorem Recorded.level_ne_trace {calls : List Call} {result : Except RingError Nat}
    {terminal : Option Event} (h : Recorded calls result terminal) {event : Event}
    (hmem : event ∈ terminal) : event.level ≠ .trace := by
  intro htrace
  rcases h.level event hmem with hlevel | hlevel
  · cases htrace.symm.trans hlevel
  · cases htrace.symm.trans hlevel

theorem Event.eq_endpointFailed_of_warn {event : Event} (h : event.level = .warn) :
    ∃ direction transferred cause, event = .endpointFailed direction transferred cause := by
  cases event with
  | endpointFailed direction transferred cause => exact ⟨direction, transferred, cause, rfl⟩
  | _ => cases h

/-- A call that a transfer goes on behind: it was answered in full, and not with 0 by a reader. -/
def Call.Whole : Call → Prop
  | .read room (.ok n) _ => 0 < n ∧ n = room
  | .write offered (.ok n) => n = offered.length
  | _ => False

/-! ## The last event, call by call -/

namespace Recorded

variable {calls : List Call} {result : Except RingError Nat} {terminal : Option Event}
  {room n total : Nat}

/-- Nobody was called. -/
theorem idle (total : Nat) : Recorded [] (.ok total) none where
  endOfStream_iff := by simp
  shortRead_iff := by simp
  shortWrite_iff := by simp
  failed_iff := by simp
  level := nofun
  target := nofun

/-- Calls that were answered in full stand before others without being seen in the last event. -/
theorem cons {call : Call} (hcall : call.Whole) (h : Recorded calls result terminal) :
    Recorded (call :: calls) result terminal where
  endOfStream_iff total := by
    have hnot : ∀ room bytes, Call.read room (.ok 0) bytes ≠ call := by
      rintro room bytes rfl
      exact absurd hcall.1 (Nat.lt_irrefl 0)
    simp [h.endOfStream_iff, hnot]
  shortRead_iff room n := by
    rw [h.shortRead_iff]
    cases calls with
    | nil =>
      -- The call that is the last one now is not short.
      constructor
      · rintro ⟨_, _, bytes, hlast⟩
        cases hlast
      · rintro ⟨_, hlt, bytes, hlast⟩
        obtain rfl := Option.some.inj hlast
        exact absurd hcall.2 (Nat.ne_of_lt hlt)
    | cons next rest => rw [List.getLast?_cons_cons]
  shortWrite_iff room n := by
    rw [h.shortWrite_iff]
    cases calls with
    | nil =>
      constructor
      · rintro ⟨_, offered, _, hlast⟩
        cases hlast
      · rintro ⟨hlt, offered, rfl, hlast⟩
        obtain rfl := Option.some.inj hlast
        exact absurd hcall (Nat.ne_of_lt hlt)
    | cons next rest => rw [List.getLast?_cons_cons]
  failed_iff := h.failed_iff
  level := h.level
  target := h.target

theorem endOfStream (room total : Nat) (bytes : List UInt8) :
    Recorded [.read room (.ok 0) bytes] (.ok total) (some (.endOfStream total)) where
  endOfStream_iff _ := by simp
  shortRead_iff room' n := by
    constructor
    · rintro ⟨⟩
    · rintro ⟨hpos, _, bytes', hlast⟩
      cases hlast
      exact absurd hpos (Nat.lt_irrefl 0)
  shortWrite_iff _ _ := by simp
  failed_iff _ _ _ := by simp
  level := by simp [Event.level]
  target := by simp [Event.target]

theorem shortRead (hpos : 0 < n) (hlt : n < room) (bytes : List UInt8) (total : Nat) :
    Recorded [.read room (.ok n) bytes] (.ok total) (some (.shortRead room n)) where
  endOfStream_iff _ := by simp [Nat.ne_of_lt hpos]
  shortRead_iff room' n' := by
    constructor
    · rintro ⟨⟩
      exact ⟨hpos, hlt, bytes, rfl⟩
    · rintro ⟨_, _, bytes', hlast⟩
      cases hlast
      rfl
  shortWrite_iff _ _ := by simp
  failed_iff _ _ _ := by simp
  level := by simp [Event.level]
  target := by simp [Event.target]

theorem shortWrite {offered : List UInt8} (hlt : n < offered.length) (total : Nat) :
    Recorded [.write offered (.ok n)] (.ok total) (some (.shortWrite offered.length n)) where
  endOfStream_iff _ := by simp
  shortRead_iff _ _ := by simp
  shortWrite_iff room' n' := by
    constructor
    · rintro ⟨⟩
      exact ⟨hlt, offered, rfl, rfl⟩
    · rintro ⟨_, offered', rfl, hlast⟩
      cases hlast
      rfl
  failed_iff _ _ _ := by simp
  level := by simp [Event.level]
  target := by simp [Event.target]

/-- A call that failed is not taken for a short one, whatever was reported. -/
theorem failed {call : Call} {cause : IoError} (h : call.failure? = some cause)
    (direction : Direction) (total : Nat) :
    Recorded [call] (.error (.endpoint direction total cause))
      (some (.endpointFailed direction total cause)) where
  endOfStream_iff _ := by simp
  shortRead_iff room n := by
    constructor
    · rintro ⟨⟩
    · rintro ⟨_, hlt, bytes, hlast⟩
      obtain rfl := Option.some.inj hlast
      simp [Call.failure?, Nat.not_lt_of_lt hlt] at h
  shortWrite_iff room n := by
    constructor
    · rintro ⟨⟩
    · rintro ⟨hlt, offered, rfl, hlast⟩
      obtain rfl := Option.some.inj hlast
      simp [Call.failure?, Nat.not_lt_of_lt hlt] at h
  failed_iff _ _ _ := by simp
  level := by simp [Event.level]
  target := by simp [Event.target]

end Recorded

/-! ## One answer -/

/-- What is reported of one answer. -/
structure Absorbed.Reports (a : Absorbed) (total : Nat) : Prop where
  more : a.step = .more → a.call.Whole ∧ a.events = a.call.trace?.toList
  done : a.step = .done → ∃ terminal, a.events = a.call.trace?.toList ++ [terminal] ∧
    Recorded [a.call] (.ok (total + a.moved)) (some terminal)
  failed : ∀ {error}, a.step = .failed error → ∃ terminal,
    a.events = a.call.trace?.toList ++ [terminal] ∧
      Recorded [a.call] (.error error) (some terminal)
  accepted : (a.events.map Event.accepted).sum = a.moved

namespace Absorbed.Reports

variable {a : Absorbed} {total : Nat}

theorem of_more (hstep : a.step = .more) (hwhole : a.call.Whole)
    (hevents : a.events = a.call.trace?.toList)
    (haccepted : (a.events.map Event.accepted).sum = a.moved) : a.Reports total where
  more _ := ⟨hwhole, hevents⟩
  done h := by cases hstep.symm.trans h
  failed h := by cases hstep.symm.trans h
  accepted := haccepted

theorem of_done {terminal : Event} (hstep : a.step = .done)
    (hevents : a.events = a.call.trace?.toList ++ [terminal])
    (hrecorded : Recorded [a.call] (.ok (total + a.moved)) (some terminal))
    (haccepted : (a.events.map Event.accepted).sum = a.moved) : a.Reports total where
  more h := by cases hstep.symm.trans h
  done _ := ⟨terminal, hevents, hrecorded⟩
  failed h := by cases hstep.symm.trans h
  accepted := haccepted

theorem of_failed {terminal : Event} {error : RingError} (hstep : a.step = .failed error)
    (hevents : a.events = a.call.trace?.toList ++ [terminal])
    (hrecorded : Recorded [a.call] (.error error) (some terminal))
    (haccepted : (a.events.map Event.accepted).sum = a.moved) : a.Reports total where
  more h := by cases hstep.symm.trans h
  done h := by cases hstep.symm.trans h
  failed h := by
    cases hstep.symm.trans h
    exact ⟨terminal, hevents, hrecorded⟩
  accepted := haccepted

end Absorbed.Reports

namespace Ring

theorem reports_absorbRead (ring : Ring) (answer : ReadAnswer) (total : Nat) :
    (ring.absorbRead answer total).Reports total := by
  unfold absorbRead
  split
  · next cause _ => exact .of_failed rfl rfl (.failed rfl .read total) rfl
  · next n _ =>
    by_cases hle : n ≤ ring.writableRun
    · have haccepted : (Event.readReturned ring.writableRun n).accepted = n := if_pos hle
      simp only [hle, dite_true]
      by_cases hzero : n = 0
      · subst hzero
        simp only [if_true, true_or]
        exact .of_done rfl rfl (.endOfStream ..) haccepted
      · have hpos := Nat.pos_of_ne_zero hzero
        by_cases hshort : n < ring.writableRun
        · simp only [hzero, if_false, hshort, if_true, or_true]
          exact .of_done rfl rfl (.shortRead hpos hshort ..) haccepted
        · simp only [hzero, if_false, hshort, or_self]
          have hwhole := Nat.le_antisymm hle (Nat.le_of_not_lt hshort)
          exact .of_more rfl ⟨hpos, hwhole⟩ rfl haccepted
    · have hnone : (Event.readReturned ring.writableRun n).accepted = 0 := if_neg hle
      have hfailure : (Call.read ring.writableRun (.ok n) []).failure? =
          some (.overReported n ring.writableRun) := if_pos (Nat.lt_of_not_le hle)
      simp only [hle, dite_false]
      exact .of_failed rfl rfl (.failed hfailure .read total) hnone

theorem reports_absorbWrite (ring : Ring) (answer : WriteAnswer) (total : Nat) :
    (ring.absorbWrite answer total).Reports total := by
  unfold absorbWrite
  split
  · next cause => exact .of_failed rfl rfl (.failed rfl .write total) rfl
  · next n =>
    simp only [← length_readable]
    by_cases hle : n ≤ ring.readable.length
    · have haccepted : (Event.writeReturned ring.readable.length n).accepted = n := if_pos hle
      simp only [hle, dite_true]
      by_cases hshort : n < ring.readable.length
      · simp only [hshort, if_true]
        exact .of_done rfl rfl (.shortWrite hshort _) haccepted
      · simp only [hshort, if_false]
        exact .of_more rfl (Nat.le_antisymm hle (Nat.le_of_not_lt hshort)) rfl haccepted
    · have hnone : (Event.writeReturned ring.readable.length n).accepted = 0 := if_neg hle
      have hfailure : (Call.write ring.readable (.ok n)).failure? =
          some (.overReported n ring.readable.length) := if_pos (Nat.lt_of_not_le hle)
      simp only [hle, dite_false]
      exact .of_failed rfl rfl (.failed hfailure .write total) hnone

end Ring

/-- Only the ring is spoken of. -/
theorem Absorbed.Reports.target {a : Absorbed} {total : Nat} (h : a.Reports total) :
    ∀ event ∈ a.events, event.target = "bytering.ring" := by
  have htrace : ∀ event ∈ a.call.trace?.toList, event.target = "bytering.ring" :=
    fun event hmem => (Call.of_trace? (Option.mem_toList.mp hmem)).2
  have hlast : ∀ {result terminal}, a.events = a.call.trace?.toList ++ [terminal] →
      Recorded [a.call] result (some terminal) →
      ∀ event ∈ a.events, event.target = "bytering.ring" := by
    intro result terminal hevents hrecorded
    rw [hevents, List.forall_mem_append, List.forall_mem_singleton]
    exact ⟨htrace, hrecorded.target terminal rfl⟩
  cases hstep : a.step with
  | more => rwa [(h.more hstep).2]
  | done =>
    obtain ⟨terminal, hevents, hrecorded⟩ := h.done hstep
    exact hlast hevents hrecorded
  | failed error =>
    obtain ⟨terminal, hevents, hrecorded⟩ := h.failed hstep
    exact hlast hevents hrecorded

/-! ## A transfer -/

/-- What is reported of a transfer. -/
structure Transfer.Reports {ε : Type} (t : Transfer ε) : Prop where
  terminal : ∃ terminal, t.events = t.calls.filterMap Call.trace? ++ terminal.toList ∧
    Recorded t.calls t.result terminal
  accepted : (t.events.map Event.accepted).sum =
    (acknowledged t.calls).length + (delivered t.calls).length

section Account

variable {ε : Type} {direction : Direction} {ring : Ring} {total : Nat} {a : Absorbed}

theorem Transfer.Reports.idle (ring : Ring) (endpoint : ε) (total : Nat) :
    (ring.idle endpoint total).Reports where
  terminal := ⟨none, rfl, .idle total⟩
  accepted := rfl

theorem Absorbed.Reports.last {result : Except RingError Nat} {terminal : Event}
    (h : a.Reports total) (hmoves : a.Moves direction ring total)
    (hevents : a.events = a.call.trace?.toList ++ [terminal])
    (hrecorded : Recorded [a.call] result (some terminal)) (endpoint : ε) :
    (a.finish endpoint result).Reports where
  terminal := by
    refine ⟨some terminal, ?_, hrecorded⟩
    show a.events = [a.call].filterMap Call.trace? ++ [terminal]
    rw [hevents]
    cases htrace : a.call.trace? <;> simp [htrace]
  accepted := by
    show (a.events.map Event.accepted).sum = _
    rw [h.accepted, hmoves.moved]
    simp [Absorbed.finish]

/-- A transfer that goes on behind an answer reports that answer first. -/
theorem Absorbed.Reports.before (h : a.Reports total) (hmoves : a.Moves direction ring total)
    (hmore : a.step = .more) {t : Transfer ε} (ht : t.Reports) : (t.after a).Reports where
  terminal := by
    obtain ⟨hwhole, hevents⟩ := h.more hmore
    obtain ⟨terminal, heq, hrecorded⟩ := ht.terminal
    refine ⟨terminal, ?_, hrecorded.cons hwhole⟩
    show a.events ++ t.events = (a.call :: t.calls).filterMap Call.trace? ++ _
    rw [hevents, heq]
    cases htrace : a.call.trace? <;> simp [htrace]
  accepted := by
    show ((a.events ++ t.events).map Event.accepted).sum =
      (acknowledged (a.call :: t.calls)).length + (delivered (a.call :: t.calls)).length
    rw [List.map_append, List.sum_append, h.accepted, hmoves.moved, ht.accepted]
    simp only [acknowledged_cons, delivered_cons, List.length_append]
    omega

end Account

namespace Ring

theorem reports_fillFrom {ρ : Type} (rd : Reader ρ) (ring : Ring) (source : ρ) (total : Nat) :
    (fillFrom rd ring source total).Reports := by
  fun_induction fillFrom rd ring source total with
  | case1 ring source total hrun reply a hmore ih =>
    exact (reports_absorbRead ring reply.1 total).before (moves_absorbRead ..) hmore ih
  | case2 ring source total hrun reply a hdone =>
    have hreports := reports_absorbRead ring reply.1 total
    obtain ⟨terminal, hevents, hrecorded⟩ := hreports.done hdone
    exact hreports.last (moves_absorbRead ..) hevents hrecorded _
  | case3 ring source total hrun reply a error hfailed =>
    have hreports := reports_absorbRead ring reply.1 total
    obtain ⟨terminal, hevents, hrecorded⟩ := hreports.failed hfailed
    exact hreports.last (moves_absorbRead ..) hevents hrecorded _
  | case4 ring source total => exact .idle ring source total

theorem reports_drainFrom {ω : Type} (wr : Writer ω) (ring : Ring) (sink : ω) (total : Nat) :
    (drainFrom wr ring sink total).Reports := by
  fun_induction drainFrom wr ring sink total with
  | case1 ring sink total hrun reply a hmore ih =>
    exact (reports_absorbWrite ring reply.1 total).before (moves_absorbWrite ..) hmore ih
  | case2 ring sink total hrun reply a hdone =>
    have hreports := reports_absorbWrite ring reply.1 total
    obtain ⟨terminal, hevents, hrecorded⟩ := hreports.done hdone
    exact hreports.last (moves_absorbWrite ..) hevents hrecorded _
  | case3 ring sink total hrun reply a error hfailed =>
    have hreports := reports_absorbWrite ring reply.1 total
    obtain ⟨terminal, hevents, hrecorded⟩ := hreports.failed hfailed
    exact hreports.last (moves_absorbWrite ..) hevents hrecorded _
  | case4 ring sink total => exact .idle ring sink total

end Ring

/-- The report of a whole transfer, whose endpoint made the calls. -/
structure Transfer.Report {ε : Type} (turn : ε → Call → ε → Prop) (direction : Direction)
    (endpoint : ε) (t : Transfer ε) : Prop where
  served : Served turn endpoint t.calls t.endpoint
  /-- One event for each answered count, in order, and at most one behind them. -/
  terminal : ∃ terminal, t.events = t.calls.filterMap Call.trace? ++ terminal.toList ∧
    Recorded t.calls t.result terminal
  traces : t.events.filter (fun event => event.level = .trace) = t.calls.filterMap Call.trace?
  /-- There is a warning exactly if the transfer fails. -/
  warns_iff : (∃ event ∈ t.events, event.level = .warn) ↔ ∃ error, t.result = .error error
  target : ∀ event ∈ t.events, event.target = "bytering.ring"
  /-- The accepted counts sum up to what is returned, or reported with the failure. -/
  counts : Counts direction (t.events.map Event.accepted).sum t.result

theorem Transfer.Reports.report {ε : Type} {turn : ε → Call → ε → Prop} {direction : Direction}
    {ring : Ring} {endpoint : ε} {t : Transfer ε} (h : t.Reports) (hmoves : t.Moves direction ring 0)
    (hserved : Served turn endpoint t.calls t.endpoint) : t.Report turn direction endpoint := by
  obtain ⟨terminal, hevents, hrecorded⟩ := h.terminal
  have hcounts := hmoves.counts
  rw [Nat.zero_add, ← h.accepted] at hcounts
  refine ⟨hserved, ⟨terminal, hevents, hrecorded⟩, ?_, ?_, ?_, hcounts⟩
  · rw [hevents, List.filter_append, List.filter_eq_self.mpr, List.filter_eq_nil_iff.mpr,
      List.append_nil]
    · intro event hmem
      simpa using hrecorded.level_ne_trace (Option.mem_toList.mp hmem)
    · intro event hmem
      simpa using (Event.of_mem_traces hmem).1
  · rw [hevents]
    constructor
    · rintro ⟨event, hmem, hwarn⟩
      rcases List.mem_append.mp hmem with htrace | hlast
      · rw [(Event.of_mem_traces htrace).1] at hwarn
        cases hwarn
      · obtain ⟨direction, transferred, cause, rfl⟩ := Event.eq_endpointFailed_of_warn hwarn
        exact ⟨_, (hrecorded.failed_iff ..).mp (Option.mem_toList.mp hlast)⟩
    · rintro ⟨error, herror⟩
      rw [herror] at hcounts
      obtain ⟨cause, rfl⟩ := hcounts
      have hlast := (hrecorded.failed_iff ..).mpr herror
      exact ⟨_, List.mem_append_right _ (Option.mem_toList.mpr hlast), rfl⟩
  · rw [hevents, List.forall_mem_append]
    exact ⟨fun event hmem => (Event.of_mem_traces hmem).2,
      fun event hmem => hrecorded.target event (Option.mem_toList.mp hmem)⟩

namespace Ring

theorem report_fill {ρ : Type} (ring : Ring) (rd : Reader ρ) (source : ρ) :
    (ring.fill rd source).Report rd.Turn .read source :=
  (reports_fillFrom rd ring source 0).report (moves_fillFrom rd ring source 0)
    (served_fillFrom rd ring source 0)

theorem report_fillWaiting {ρ : Type} (ring : Ring) (rd : WaitingReader ρ) (source : ρ) :
    (ring.fillWaiting rd source).Report rd.Turn .read source := by
  have hreports := reports_fillFrom rd.settled ring source 0
  rw [← fillWaitingFrom_eq_settled] at hreports
  exact hreports.report (moves_fillWaitingFrom rd ring source 0)
    (served_fillWaitingFrom rd ring source 0)

theorem report_drain {ω : Type} (ring : Ring) (wr : Writer ω) (sink : ω) :
    (ring.drain wr sink).Report wr.Turn .write sink :=
  (reports_drainFrom wr ring sink 0).report (moves_drainFrom wr ring sink 0)
    (served_drainFrom wr ring sink 0)

theorem report_drainWaiting {ω : Type} (ring : Ring) (wr : WaitingWriter ω) (sink : ω) :
    (ring.drainWaiting wr sink).Report wr.Turn .write sink := by
  have hreports := reports_drainFrom wr.settled ring sink 0
  rw [← drainWaitingFrom_eq_settled] at hreports
  exact hreports.report (moves_drainWaitingFrom wr ring sink 0)
    (served_drainWaitingFrom wr ring sink 0)

end Ring

end RingRelay
