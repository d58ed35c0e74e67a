import RingRelay.Proofs.Relay.Advances
/- What a relay does when its reader has come to the end of the stream.

   A read that reports the end of the stream ends the fill it belongs to. If it is the first read of
   the fill, the fill has brought nothing: the relay flushes its writer and ends. If it is the second
   one, behind a read that was answered up to the end of the array, the fill has brought something:
   the relay drains that, and then fills again and so reads on behind the end of the stream.

   `Stage.Follows` is the invariant. The relay goes on only while each end of the stream was of the
   second kind (`Passed`), and one of the first kind has nothing but a flush behind it. -/
namespace RingRelay

/-- A read that reports the end of the stream. -/
def Call.AtEnd : Call → Prop
  | .read _ (.ok 0) _ => True
  | _ => False

/-- A read that was answered in full. -/
def Call.Full : Call → Prop
  | .read room (.ok n) _ => 0 < n ∧ n = room
  | _ => False

theorem Call.Full.room_ne_none {call : Call} (h : call.Full) : call.room? ≠ none := by
  unfold Call.Full at h
  split at h
  · simp [Call.room?]
  · exact h.elim

theorem Call.result_of_atEnd {room : Nat} {result : Except IoError Nat} {bytes : List UInt8}
    (h : (Call.read room result bytes).AtEnd) : result = .ok 0 := by
  unfold Call.AtEnd at h
  split at h
  · next heq => exact (Call.read.inj heq).2.1
  · exact h.elim

namespace Relay

/-- The last call is a read that was answered in full. -/
def EndsFull (calls : List Call) : Prop := ∃ call ∈ calls.getLast?, call.Full

/-- The last call is no read, so that a read behind it begins a fill. -/
def Fresh (calls : List Call) : Prop := ∀ call ∈ calls.getLast?, call.room? = none

/-- Each end of the stream was reported directly behind a read that was answered in full. -/
def Passed (calls : List Call) : Prop :=
  ∀ before eof after, calls = before ++ eof :: after → eof.AtEnd → EndsFull before

/-- The last call is the first read of a fill and reports the end of the stream. -/
def EndsStream (calls : List Call) : Prop :=
  ∃ before room, calls = before ++ [.read room (.ok 0) []] ∧ Passed before ∧ Fresh before

/-- What the calls so far can be at a stage. -/
def Stage.Follows (calls : List Call) : Stage → Prop
  | .filling total => Passed calls ∧ (total = 0 ∧ Fresh calls ∨ 0 < total ∧ EndsFull calls)
  | .draining _ _ => Passed calls
  | .flushing => Passed calls
  | .finishing => EndsStream calls
  | .ended (.ok _) => ∃ before, calls = before ++ [.flush (.ok ())] ∧ EndsStream before
  | .ended (.error _) =>
    Passed calls ∨ ∃ before cause, calls = before ++ [.flush (.error cause)] ∧ EndsStream before

def Moment.Follows {ρ ω : Type} (m : Moment ρ ω) : Prop :=
  m.stage.Follows m.state.calls.toList

/-! ## One call more -/

/-- A member of a list with one more at its end is the one at the end or a member of the list. -/
theorem concat_eq_append_cons {α : Type} {list before after : List α} {last mid : α}
    (h : list ++ [last] = before ++ mid :: after) :
    (after = [] ∧ list = before ∧ last = mid) ∨
      ∃ after', after = after' ++ [last] ∧ list = before ++ mid :: after' := by
  rcases List.eq_nil_or_concat after with rfl | ⟨after', last', rfl⟩
  · obtain ⟨rfl, hlast⟩ := List.append_inj' h rfl
    exact .inl ⟨rfl, rfl, List.singleton_inj.mp hlast⟩
  · rw [List.concat_eq_append, ← List.cons_append, ← List.append_assoc] at h
    obtain ⟨rfl, hlast⟩ := List.append_inj' h rfl
    obtain rfl := List.singleton_inj.mp hlast
    exact .inr ⟨after', List.concat_eq_append, rfl⟩

theorem Passed.concat {calls : List Call} {call : Call} (h : Passed calls)
    (hcall : call.AtEnd → EndsFull calls) : Passed (calls ++ [call]) := by
  intro before eof after heq hend
  rcases concat_eq_append_cons heq with ⟨_, rfl, rfl⟩ | ⟨after', _, heq'⟩
  · exact hcall hend
  · exact h before eof after' heq' hend

theorem fresh_concat {calls : List Call} {call : Call} (h : call.room? = none) :
    Fresh (calls ++ [call]) := by
  intro last hlast
  rw [List.getLast?_concat, Option.mem_some_iff] at hlast
  rwa [← hlast]

theorem endsFull_concat {calls : List Call} {call : Call} (h : call.Full) :
    EndsFull (calls ++ [call]) := ⟨call, by simp, h⟩

theorem EndsFull.not_fresh {calls : List Call} (h : EndsFull calls) : ¬Fresh calls := by
  obtain ⟨call, hlast, hfull⟩ := h
  intro hfresh
  exact hfull.room_ne_none (hfresh call hlast)

variable {ρ ω : Type}

section Steps

variable {rd : RawReader ρ} {wr : RawWriter ω} {options : RelayOptions}
  {s : State ρ ω} {total : Nat} {a : Absorbed} {source : ρ} {sink : ω}

theorem State.Writes.passed (h : s.Writes wr total a sink) (hpassed : Passed s.calls.toList) :
    Passed (s.afterWrite a sink).calls.toList := by
  rw [State.calls_afterWrite]
  apply hpassed.concat
  cases h
  rw [Ring.call_absorbWrite]
  exact False.elim

theorem State.Writes.fresh (h : s.Writes wr total a sink) :
    Fresh (s.afterWrite a sink).calls.toList := by
  rw [State.calls_afterWrite]
  apply fresh_concat
  cases h
  rw [Ring.call_absorbWrite]
  rfl

/-- A read behind which the fill goes on was answered in full, and not at the end of the stream. -/
theorem State.Reads.endsFull_of_more (h : s.Reads rd total a source) (hmore : a.step = .more) :
    EndsFull (s.afterRead a source).calls.toList ∧ ¬a.call.AtEnd := by
  obtain ⟨hcall, hpos⟩ := h.call_of_more hmore
  rw [State.calls_afterRead]
  constructor
  · apply endsFull_concat
    rw [hcall]
    exact ⟨hpos, rfl⟩
  · rw [hcall]
    intro hend
    exact Nat.ne_of_gt hpos (Except.ok.inj (Call.result_of_atEnd hend))

theorem State.Reads.moved_of_atEnd (h : s.Reads rd total a source)
    (hroom : s.ring.size < s.ring.capacity) (hdone : a.step = .done) (hend : a.call.AtEnd) :
    a.moved = 0 := by
  obtain ⟨room, hcall, _⟩ := h.call_of_done hroom hdone
  rw [hcall] at hend
  exact Except.ok.inj (Call.result_of_atEnd hend)

theorem passed_afterFlush (hpassed : Passed s.calls.toList) (answer : FlushAnswer) (later : ω) :
    Passed (s.afterFlush answer later).calls.toList := by
  rw [State.calls_afterFlush]
  exact hpassed.concat False.elim

/-- Every poll keeps what the calls can be. -/
theorem Advances.follows {m m' : Moment ρ ω} (h : Advances rd wr options m m') (hsized : m.Sized)
    (hm : m.Follows) : m'.Follows := by
  cases h with
  | readerWaits => exact hm
  | readsOn h hmore hroom =>
    obtain ⟨hfull, hnot⟩ := h.endsFull_of_more hmore
    have hpos := (h.call_of_more hmore).2
    refine ⟨?_, .inr ⟨by omega, hfull⟩⟩
    rw [State.calls_afterRead]
    exact hm.1.concat fun hend => absurd hend hnot
  | @fills s total a later h hstep hsome =>
    show Passed (s.afterRead a later).calls.toList
    rw [State.calls_afterRead]
    apply hm.1.concat
    intro hend
    rcases hstep with hmore | hdone
    · exact absurd hend (h.endsFull_of_more hmore).2
    · -- The fill brought something before this read, which is then its second one.
      have hnone := h.moved_of_atEnd hsized.2 hdone hend
      rcases hm.2 with ⟨hzero, _⟩ | ⟨_, hfull⟩
      · omega
      · exact hfull
  | @endsStream s a later h hdone hnone =>
    obtain ⟨room, hcall, _⟩ := h.call_of_done hsized.2 hdone
    have hdelivered := h.length_delivered
    rw [hnone, List.length_eq_zero_iff] at hdelivered
    rw [hnone, hdelivered] at hcall
    rcases hm.2 with ⟨_, hfresh⟩ | ⟨hpos, _⟩
    · refine ⟨s.calls.toList, room, ?_, hm.1, hfresh⟩
      rw [State.calls_afterRead, hcall]
    · omega
  | @readFails s total a later error h hfailed =>
    obtain ⟨room, result, hcall, hne⟩ := h.call_of_failed hfailed
    refine .inl ?_
    rw [State.calls_afterRead]
    apply hm.1.concat
    rw [hcall]
    exact fun hend => absurd (Call.result_of_atEnd hend) hne
  | writerWaits => exact hm
  | writesOn h => exact h.passed hm
  | drainsAgain h => exact h.passed hm
  | @empties s pending total a later h =>
    have hpassed := h.passed hm
    show (Stage.behindDrain options).Follows (s.afterWrite a later).calls.toList
    unfold Stage.behindDrain
    split
    · exact hpassed
    · exact ⟨hpassed, .inl ⟨rfl, h.fresh⟩⟩
  | stalls h => exact .inl (h.passed hm)
  | writeFails h => exact .inl (h.passed hm)
  | flushWaits => exact hm
  | @flushes s later =>
    refine ⟨passed_afterFlush hm (.ok ()) later, .inl ⟨rfl, ?_⟩⟩
    rw [State.calls_afterFlush]
    exact fresh_concat rfl
  | @finishes s later => exact ⟨s.calls.toList, State.calls_afterFlush s (.ok ()) later, hm⟩
  | @flushFails s stage cause later hstage =>
    rcases hstage with rfl | rfl
    · exact .inl (passed_afterFlush hm (.error cause) later)
    · exact .inr ⟨s.calls.toList, cause, State.calls_afterFlush s (.error cause) later, hm⟩
  | stays => exact hm

theorem follows_moments (rd : RawReader ρ) (wr : RawWriter ω) (options : RelayOptions)
    (ring : Ring) (source : ρ) (sink : ω) (n : Nat) :
    (moments rd wr options ring source sink n).Follows := by
  refine moments_induction ?_ (fun hsized _ hm h => h.follows hsized hm) n
  have hnone : Passed [] := by simp [Passed]
  unfold enterDrain
  split
  · next hempty =>
    rw [enterFill_of_empty hempty]
    exact ⟨hnone, .inl ⟨rfl, by simp [Fresh, initial]⟩⟩
  · exact hnone

end Steps

/-! ## All calls of a relay -/

theorem EndsStream.cases {calls before after : List Call} {eof : Call} (h : EndsStream calls)
    (heq : calls = before ++ eof :: after) (hend : eof.AtEnd) :
    EndsFull before ∨ Fresh before ∧ after = [] := by
  obtain ⟨earlier, room, rfl, hpassed, hfresh⟩ := h
  rcases concat_eq_append_cons heq with ⟨hnone, rfl, _⟩ | ⟨after', _, heq'⟩
  · exact .inr ⟨hfresh, hnone⟩
  · exact .inl (hpassed before eof after' heq' hend)

/-- The end of the stream in calls of which the last is a flush. -/
theorem EndsStream.cases_of_flush {calls earlier before after : List Call} {eof : Call}
    {answer : FlushAnswer} (h : EndsStream earlier) (hcalls : calls = earlier ++ [.flush answer])
    (heq : calls = before ++ eof :: after) (hend : eof.AtEnd) :
    EndsFull before ∨ Fresh before ∧ after = [.flush answer] := by
  rw [hcalls] at heq
  rcases concat_eq_append_cons heq with ⟨_, _, rfl⟩ | ⟨after', hafter, heq'⟩
  · exact hend.elim
  · refine (h.cases heq' hend).imp_right ?_
    rintro ⟨hfresh, rfl⟩
    exact ⟨hfresh, hafter⟩

/-- The read that ends a stream delivers nothing. -/
theorem EndsStream.delivered_eq {calls before : List Call} {eof : Call} (h : EndsStream calls)
    (heq : calls = before ++ [eof]) : delivered calls = delivered before := by
  obtain ⟨earlier, room, rfl, _⟩ := h
  obtain ⟨rfl, _⟩ := List.append_inj' heq rfl
  simp [Call.delivered]

/-- Behind the end of the stream that was reported behind a read answered in full there is the read
    that is the first of its fill. -/
theorem EndsStream.reads_on {calls before after : List Call} {eof : Call} (h : EndsStream calls)
    (heq : calls = before ++ eof :: after) (hfull : EndsFull before) :
    ∃ call ∈ after, call.room? ≠ none := by
  obtain ⟨earlier, room, rfl, _, hfresh⟩ := h
  rcases concat_eq_append_cons heq with ⟨_, rfl, _⟩ | ⟨after', rfl, _⟩
  · exact absurd hfresh hfull.not_fresh
  · exact ⟨.read room (.ok 0) [], List.mem_concat_self, nofun⟩

/-- The stream was at its end for the first read of a fill: the relay has done nothing since then but
    flush its writer, and it waits for that flush or has ended. -/
structure Moment.Stopped {ρ ω : Type} (m : Moment ρ ω) (before after : List Call) : Prop where
  fresh : Fresh before
  after_eq : after = [] ∨ ∃ answer, after = [.flush answer]
  stage_eq : m.stage = .finishing ∨ ∃ result, m.stage = .ended result

theorem Moment.Follows.cases {ρ ω : Type} {m : Moment ρ ω} (h : m.Follows)
    {before after : List Call} {eof : Call} (heq : m.state.calls.toList = before ++ eof :: after)
    (hend : eof.AtEnd) : EndsFull before ∨ m.Stopped before after := by
  obtain ⟨s, stage⟩ := m
  cases stage with
  | filling total => exact .inl (h.1 before eof after heq hend)
  | draining pending total => exact .inl (h before eof after heq hend)
  | flushing => exact .inl (h before eof after heq hend)
  | finishing =>
    refine (EndsStream.cases h heq hend).imp_right ?_
    rintro ⟨hfresh, hnone⟩
    exact ⟨hfresh, .inl hnone, .inl rfl⟩
  | ended result =>
    cases result with
    | ok stats =>
      obtain ⟨earlier, hcalls, hends⟩ := h
      refine (hends.cases_of_flush hcalls heq hend).imp_right ?_
      rintro ⟨hfresh, hflush⟩
      exact ⟨hfresh, .inr ⟨_, hflush⟩, .inr ⟨_, rfl⟩⟩
    | error error =>
      rcases h with hpassed | ⟨earlier, cause, hcalls, hends⟩
      · exact .inl (hpassed before eof after heq hend)
      · refine (hends.cases_of_flush hcalls heq hend).imp_right ?_
        rintro ⟨hfresh, hflush⟩
        exact ⟨hfresh, .inr ⟨_, hflush⟩, .inr ⟨_, rfl⟩⟩

/-- The calls of a relay that began with the ring `first` and ended well. -/
structure EndedWell (first : Ring) (calls : List Call) : Prop where
  /-- The last read is at the end of the stream and the first one of its fill, and the last flush is
      all that is behind it. -/
  calls_eq : ∃ before room, calls = before ++ [.read room (.ok 0) [], .flush (.ok ())] ∧
    Fresh before
  /-- What came out is what was in the ring and all that was delivered before the end of the stream,
      unless that was reported behind a read answered in full. -/
  output_eq : ∀ before eof after, calls = before ++ eof :: after → eof.AtEnd →
    EndsFull before ∨ acknowledged calls = first.contents ++ delivered before
  /-- The relay read on behind the end of the stream exactly if that was reported behind a read
      answered in full. -/
  reads_on_iff :
    (∃ before eof after, calls = before ++ eof :: after ∧ eof.AtEnd ∧
        ∃ call ∈ after, call.room? ≠ none) ↔
      ∃ before eof after, calls = before ++ eof :: after ∧ eof.AtEnd ∧ EndsFull before

theorem endedWell_moments (rd : RawReader ρ) (wr : RawWriter ω) (options : RelayOptions)
    (ring : Ring) (source : ρ) (sink : ω) {n : Nat} {s : State ρ ω} {stats : RelayStats}
    (hn : moments rd wr options ring source sink n = ⟨s, .ended (.ok stats)⟩) :
    EndedWell ring s.calls.toList := by
  have hfollows := follows_moments rd wr options ring source sink n
  have hsized := sized_moments rd wr options ring source sink n
  have hconserves := (sound_moments rd wr options ring source sink n).balanced.conserves
  rw [hn] at hfollows hsized hconserves
  have hempty : s.ring.contents = [] := (Ring.contents_eq_nil_iff _).mpr hsized
  rw [hempty, List.append_nil] at hconserves
  obtain ⟨earlier, hcalls, hends⟩ := hfollows
  refine ⟨?_, ?_, ⟨?_, ?_⟩⟩
  · obtain ⟨first, room, rfl, _, hfresh⟩ := hends
    refine ⟨first, room, ?_, hfresh⟩
    rw [hcalls, List.append_assoc]
    rfl
  · intro before eof after heq hend
    refine (hends.cases_of_flush hcalls heq hend).imp_right ?_
    rintro ⟨_, rfl⟩
    have hlast : earlier = before ++ [eof] := by
      rw [hcalls, List.append_cons before] at heq
      exact List.append_cancel_right heq
    calc acknowledged s.calls.toList
        = ring.contents ++ delivered s.calls.toList := hconserves
      _ = ring.contents ++ delivered earlier := by rw [hcalls]; simp [Call.delivered]
      _ = ring.contents ++ delivered before := by rw [hends.delivered_eq hlast]
  · rintro ⟨before, eof, after, heq, hend, call, hmem, hread⟩
    rcases hends.cases_of_flush hcalls heq hend with hfull | ⟨_, rfl⟩
    · exact ⟨before, eof, after, heq, hend, hfull⟩
    · obtain rfl := List.mem_singleton.mp hmem
      exact absurd rfl hread
  · rintro ⟨before, eof, after, heq, hend, hfull⟩
    refine ⟨before, eof, after, heq, hend, ?_⟩
    rw [hcalls] at heq
    rcases concat_eq_append_cons heq with ⟨_, _, rfl⟩ | ⟨after', rfl, heq'⟩
    · exact hend.elim
    · obtain ⟨call, hmem, hread⟩ := hends.reads_on heq' hfull
      exact ⟨call, List.mem_append_left _ hmem, hread⟩

/-- A read that reports the end of the stream is either the first one of its fill, and then the relay
    stops, or it comes directly behind a read that was answered in full. A relay that ends well after
    all has read on behind the second kind, and what came out of it is all that was delivered before
    the first end of the stream of the first kind. -/
theorem cases_of_endOfStream (rd : RawReader ρ) (wr : RawWriter ω) (options : RelayOptions)
    (ring : Ring) (source : ρ) (sink : ω) :
    (∀ n before eof after,
        (moments rd wr options ring source sink n).state.calls.toList = before ++ eof :: after →
        eof.AtEnd →
        EndsFull before ∨ (moments rd wr options ring source sink n).Stopped before after) ∧
      (∀ n (s : State ρ ω) stats,
        moments rd wr options ring source sink n = ⟨s, .ended (.ok stats)⟩ →
        EndedWell ring s.calls.toList) ∧
      ∀ (r : Returned) stats, r.result = .ok stats → EndedWell r.ring r.calls := by
  refine ⟨?_, ?_, ?_⟩
  · intro n before eof after heq hend
    exact (follows_moments rd wr options ring source sink n).cases heq hend
  · intro n s stats hn
    exact endedWell_moments rd wr options ring source sink hn
  · intro r stats hok
    obtain ⟨n, hn⟩ := r.exists_moments
    rw [hok] at hn
    exact endedWell_moments r.rd.raw r.wr.raw r.options r.ring r.source r.sink hn

/-- Two cells with nothing in them. -/
def newPair : Ring := ⟨#[0, 0], 0, 0, by decide, by decide, by decide⟩

/-- A relay through two cells, of a reader that answers with one byte, with one more, at the end of
    the stream, and with one more again. When the first byte is gone, one cell is left to the end of
    the array. -/
def twoCellsEnd : Nat → Moment ReadScript WriteScript :=
  moments ReadScript.waitingReader.raw WriteScript.waitingWriter.raw {} newPair
    [.data [0x61], .data [0x62], .eof, .data [0x63]] ⟨[], none, []⟩

theorem cases_of_endOfStream_twoCells :
    ∃ s stats, twoCellsEnd 12 = ⟨s, .ended (.ok stats)⟩ ∧ EndedWell newPair s.calls.toList ∧
      acknowledged s.calls.toList = [0x61, 0x62, 0x63] := by
  obtain ⟨_, hwell, _⟩ := cases_of_endOfStream ReadScript.waitingReader.raw
    WriteScript.waitingWriter.raw {} newPair
    [.data [0x61], .data [0x62], .eof, .data [0x63]] ⟨[], none, []⟩
  exact ⟨_, _, rfl, hwell 12 _ _ rfl, rfl⟩

/-- It is not so that a relay reads no more once a read was at the end of the stream. -/
theorem not_forall_no_read_behind_end :
    ¬∀ (ρ ω : Type) (rd : RawReader ρ) (wr : RawWriter ω) (options : RelayOptions) (ring : Ring)
      (source : ρ) (sink : ω) (n : Nat) (before : List Call) (eof : Call) (after : List Call),
        (moments rd wr options ring source sink n).state.calls.toList = before ++ eof :: after →
        eof.AtEnd → ∀ call ∈ after, call.room? = none := by
  intro h
  have hcalls : (twoCellsEnd 8).state.calls.toList =
      [.read 2 (.ok 1) [0x61], .write [0x61] (.ok 1), .flush (.ok ()), .read 1 (.ok 1) [0x62]] ++
        .read 1 (.ok 0) [] ::
          [.write [0x62] (.ok 1), .flush (.ok ()), .read 2 (.ok 1) [0x63]] := rfl
  have hnone := h _ _ _ _ _ _ _ _ 8 _ _ _ hcalls trivial (.read 2 (.ok 1) [0x63]) (by simp)
  cases hnone

end Relay

end RingRelay
