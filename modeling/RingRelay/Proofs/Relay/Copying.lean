import RingRelay.Endpoint.Stored
import RingRelay.Proofs.Relay.Failures
import RingRelay.Proofs.Relay.Termination
/- Relays that copy a stream.

   A reader yields some bytes if its answers bring them in their order and then nothing more, in
   pieces of any length and with any pauses (`RawReader.Yields`). A writer collects if it takes some
   of whatever it is offered, and a flush brings all that it took through to the end it leads to
   (`RawWriter.Collects`). Every poll of a relay between the two keeps account of what the reader
   has still to bring and of what the writer has taken (`Advances.copied`). So the relay ends, it
   ends well, and the bytes have come through whatever the capacity of its ring
   (`exists_runWithin_of_copying`). -/
namespace RingRelay

/-! ## The endpoints -/

/-- A reader that, as long as `p` holds of it and of the bytes that are left, answers with the next
    of them: any number that there is room for, but not none while there are some. -/
structure RawReader.Yields {ρ : Type} (rd : RawReader ρ) (p : ρ → List UInt8 → Prop) : Prop where
  waits : ∀ {source later bytes room}, p source bytes → rd.poll source room = (.pending, later) →
    p later bytes
  answers : ∀ {source later bytes room answer}, p source bytes →
    rd.poll source room = (.ready answer, later) →
      ∃ n, answer.result = .ok n ∧ n ≤ room ∧ n ≤ bytes.length ∧
        (0 < room → bytes ≠ [] → 0 < n) ∧ p later (bytes.drop n) ∧
        ∀ slice : List UInt8, slice.length = room → answer.delivered slice = bytes.take n

/-- A writer that, as long as `q` holds of it and of the bytes it took so far, takes some of what it
    is offered and can be flushed. What has come through behind a flush is all that it took. -/
structure RawWriter.Collects {ω : Type} (wr : RawWriter ω) (written : ω → List UInt8)
    (q : ω → List UInt8 → Prop) : Prop where
  waits : ∀ {sink later bytes offered}, q sink bytes →
    wr.poll sink offered = (.pending, later) → q later bytes
  answers : ∀ {sink later bytes offered answer}, q sink bytes →
    wr.poll sink offered = (.ready answer, later) →
      ∃ n, answer = .ok n ∧ n ≤ offered.length ∧ (offered ≠ [] → 0 < n) ∧
        q later (bytes ++ offered.take n)
  flushWaits : ∀ {sink later bytes}, q sink bytes → wr.flush sink = (.pending, later) →
    q later bytes
  flushes : ∀ {sink later bytes answer}, q sink bytes → wr.flush sink = (.ready answer, later) →
    answer = .ok () ∧ q later bytes ∧ written later = bytes

theorem RawReader.Yields.obliges {ρ : Type} {rd : RawReader ρ} {p : ρ → List UInt8 → Prop}
    (h : rd.Yields p) : rd.Obliges fun source => ∃ bytes, p source bytes where
  waits {source later room} hp hpoll := by
    obtain ⟨bytes, hp⟩ := hp
    exact ⟨bytes, h.waits hp hpoll⟩
  answers {source later room answer} hp hpoll := by
    obtain ⟨bytes, hp⟩ := hp
    obtain ⟨n, hresult, hroom, _, _, hlater, _⟩ := h.answers hp hpoll
    exact ⟨⟨_, hlater⟩, n, hresult, hroom⟩

theorem RawWriter.Collects.obliges {ω : Type} {wr : RawWriter ω} {written : ω → List UInt8}
    {q : ω → List UInt8 → Prop} (h : wr.Collects written q) :
    wr.Obliges fun sink => ∃ bytes, q sink bytes where
  waits {sink later offered} hq hpoll := by
    obtain ⟨bytes, hq⟩ := hq
    exact ⟨bytes, h.waits hq hpoll⟩
  answers {sink later offered answer} hq hpoll := by
    obtain ⟨bytes, hq⟩ := hq
    obtain ⟨n, hanswer, hfits, hsome, hlater⟩ := h.answers hq hpoll
    exact ⟨⟨_, hlater⟩, n, hanswer, hfits, hsome⟩
  flushWaits {sink later} hq hflush := by
    obtain ⟨bytes, hq⟩ := hq
    exact ⟨bytes, h.flushWaits hq hflush⟩
  flushes {sink later answer} hq hflush := by
    obtain ⟨bytes, hq⟩ := hq
    obtain ⟨hanswer, hlater, _⟩ := h.flushes hq hflush
    exact ⟨⟨bytes, hlater⟩, hanswer⟩

/-! ## A reader that yields bytes runs dry -/

section Dry

variable {ρ : Type} {rd : WaitingReader ρ} {p : ρ → List UInt8 → Prop} {source : ρ}
  {bytes : List UInt8}

/-- However often it is found not ready, in the end it brings the next of its bytes. -/
theorem RawReader.Yields.settled (h : rd.raw.Yields p) (hp : p source bytes) (room : Nat) :
    ∃ n, (rd.settled.read source room).1.result = .ok n ∧ n ≤ bytes.length ∧
      (0 < room → bytes ≠ [] → 0 < n) ∧ p (rd.settled.read source room).2 (bytes.drop n) := by
  show ∃ n, (rd.answer source room).1.result = .ok n ∧ n ≤ bytes.length ∧
    (0 < room → bytes ≠ [] → 0 < n) ∧ p (rd.answer source room).2 (bytes.drop n)
  fun_induction WaitingReader.answer rd source room with
  | case1 source later hpoll ih => exact ih (h.waits hp hpoll)
  | case2 source answer later hpoll =>
    obtain ⟨n, hresult, _, hle, hsome, hlater, _⟩ := h.answers hp hpoll
    exact ⟨n, hresult, hle, hsome, hlater⟩

/-- Each call with some room leaves fewer bytes, until there are none. -/
theorem RawReader.Yields.behind (h : rd.raw.Yields p) (hp : p source bytes) {rooms : List Nat}
    (hpos : ∀ room ∈ rooms, 0 < room) :
    ∃ rest, p (rd.settled.behind source rooms) rest ∧
      rest.length ≤ bytes.length - rooms.length := by
  induction rooms generalizing source bytes with
  | nil => exact ⟨bytes, hp, Nat.le_refl _⟩
  | cons room rooms ih =>
    obtain ⟨hroom, hrooms⟩ := List.forall_mem_cons.mp hpos
    obtain ⟨n, _, hle, hsome, hlater⟩ := h.settled hp room
    obtain ⟨rest, hrest, hlength⟩ := ih hlater hrooms
    refine ⟨rest, hrest, ?_⟩
    rw [List.length_drop] at hlength
    rw [List.length_cons]
    by_cases hnone : bytes = []
    · rw [hnone, List.length_nil] at hlength
      omega
    · have := hsome hroom hnone
      omega

theorem RawReader.Yields.runsDry (h : rd.raw.Yields p) (hp : p source bytes) :
    rd.settled.RunsDry source := by
  intro rooms hpos
  refine ⟨bytes.length, fun m hm => ?_⟩
  have hsome : ∀ room ∈ (List.range m).map rooms, 0 < room := by
    rw [List.forall_mem_map]
    exact fun i _ => hpos i
  obtain ⟨rest, hrest, hlength⟩ := h.behind hp hsome
  rw [List.length_map, List.length_range, Nat.sub_eq_zero_of_le hm] at hlength
  obtain rfl := List.length_eq_zero_iff.mp (Nat.le_zero.mp hlength)
  obtain ⟨n, hresult, hle, _, _⟩ := h.settled hrest (rooms m)
  rw [hresult, Nat.le_zero.mp hle]

end Dry

namespace Relay

variable {ρ ω : Type} {rd : RawReader ρ} {wr : RawWriter ω} {options : RelayOptions}
  {p : ρ → List UInt8 → Prop} {q : ω → List UInt8 → Prop} {written : ω → List UInt8}
  {bytes : List UInt8}

/-! ## One call -/

section Calls

variable {s : State ρ ω} {total : Nat} {a : Absorbed}

/-- A call of a reader that yields bytes brings the next of them. If it had room and brought
    nothing, there are none left. -/
theorem State.Reads.yields {later : ρ} {rest : List UInt8} (h : s.Reads rd total a later)
    (hrd : rd.Yields p) (hsource : p s.source rest) :
    ∃ rest', p later rest' ∧ rest = a.call.delivered ++ rest' ∧
      (s.ring.size < s.ring.capacity → a.moved = 0 → rest' = []) := by
  have hmoved := h.length_delivered
  cases h with
  | @mk answer _ h =>
    obtain ⟨n, _, _, hle, hsome, hlater, hbytes⟩ := hrd.answers hsource h
    have hdelivered : (s.ring.absorbRead answer total).call.delivered = rest.take n := by
      rw [Ring.call_absorbRead]
      exact hbytes _ (Ring.length_writable _)
    refine ⟨rest.drop n, hlater, ?_, ?_⟩
    · rw [hdelivered, List.take_append_drop]
    · intro hroom hnone
      rw [hdelivered, List.length_take, hnone, Nat.min_eq_left hle] at hmoved
      have hrun : 0 < s.ring.writableRun := by
        rw [Nat.pos_iff_ne_zero, Ne, Ring.writableRun_eq_zero_iff]
        omega
      by_cases hempty : rest = []
      · rw [hempty, List.drop_nil]
      · have := hsome hrun hempty
        omega

/-- A call of a writer that collects puts what it takes over behind what it has. -/
theorem State.Writes.collects {later : ω} {taken : List UInt8} (h : s.Writes wr total a later)
    (hwr : wr.Collects written q) (hsink : q s.sink taken) :
    q later (taken ++ a.call.acknowledged) := by
  cases h with
  | mk h =>
    obtain ⟨n, rfl, hfits, _, hlater⟩ := hwr.answers hsink h
    rw [Ring.call_absorbWrite, Call.acknowledged, if_pos hfits]
    exact hlater

end Calls

/-! ## One poll -/

/-- What was delivered and what the reader has still to bring are the bytes, and the writer has
    what was taken over. -/
structure State.Copied (p : ρ → List UInt8 → Prop) (q : ω → List UInt8 → Prop)
    (bytes : List UInt8) (s : State ρ ω) : Prop where
  source : ∃ rest, p s.source rest ∧ bytes = delivered s.calls.toList ++ rest
  sink : q s.sink (acknowledged s.calls.toList)

/-- A relay that is about to end well has brought all bytes, and behind its last flush what was
    taken over has come through. -/
def Stage.Copied (written : ω → List UInt8) (bytes : List UInt8) (s : State ρ ω) : Stage → Prop
  | .finishing => bytes = delivered s.calls.toList
  | .ended (.ok _) =>
    bytes = delivered s.calls.toList ∧ written s.sink = acknowledged s.calls.toList
  | _ => True

structure Moment.Copied (p : ρ → List UInt8 → Prop) (q : ω → List UInt8 → Prop)
    (written : ω → List UInt8) (bytes : List UInt8) (m : Moment ρ ω) : Prop where
  state : m.state.Copied p q bytes
  stage : m.stage.Copied written bytes m.state

section Polls

variable {s : State ρ ω} {total : Nat} {a : Absorbed}

theorem State.Copied.afterRead {later : ρ} (h : s.Copied p q bytes)
    (hreads : s.Reads rd total a later) (hrd : rd.Yields p) :
    (s.afterRead a later).Copied p q bytes where
  source := by
    obtain ⟨rest, hrest, hbytes⟩ := h.source
    obtain ⟨rest', hlater, rfl, _⟩ := hreads.yields hrd hrest
    refine ⟨rest', hlater, ?_⟩
    rw [hbytes]
    simp
  sink := by
    show q s.sink _
    rw [State.calls_afterRead, acknowledged_append]
    simpa [hreads.acknowledged] using h.sink

theorem State.Copied.afterWrite {later : ω} (h : s.Copied p q bytes)
    (hwrites : s.Writes wr total a later) (hwr : wr.Collects written q) :
    (s.afterWrite a later).Copied p q bytes where
  source := by
    obtain ⟨rest, hrest, hbytes⟩ := h.source
    refine ⟨rest, hrest, ?_⟩
    rw [hbytes, State.calls_afterWrite]
    simp [hwrites.delivered]
  sink := by
    show q later _
    rw [State.calls_afterWrite, acknowledged_append]
    simpa using hwrites.collects hwr h.sink

theorem State.Copied.afterFlush {later : ω} (h : s.Copied p q bytes) (answer : FlushAnswer)
    (hlater : q later (acknowledged s.calls.toList)) :
    (s.afterFlush answer later).Copied p q bytes where
  source := by
    obtain ⟨rest, hrest, hbytes⟩ := h.source
    refine ⟨rest, hrest, ?_⟩
    rw [hbytes, State.calls_afterFlush]
    simp [Call.delivered]
  sink := by
    show q later _
    rw [State.calls_afterFlush]
    simpa [Call.acknowledged] using hlater

theorem Stage.copied_behindDrain (options : RelayOptions) (written : ω → List UInt8)
    (bytes : List UInt8) (s : State ρ ω) : (Stage.behindDrain options).Copied written bytes s := by
  unfold Stage.behindDrain
  split <;> trivial

/-- A read with room that brought nothing has found the end of the bytes. -/
theorem State.Copied.endsStream {later : ρ} (h : s.Copied p q bytes)
    (hreads : s.Reads rd total a later) (hrd : rd.Yields p)
    (hroom : s.ring.size < s.ring.capacity) (hnone : a.moved = 0) :
    bytes = delivered (s.afterRead a later).calls.toList := by
  obtain ⟨rest, hrest, hbytes⟩ := h.source
  obtain ⟨rest', _, rfl, hend⟩ := hreads.yields hrd hrest
  rw [hbytes, hend hroom hnone]
  simp

/-- Every poll keeps the account. -/
theorem Advances.copied {m m' : Moment ρ ω} (h : Advances rd wr options m m') (hsized : m.Sized)
    (hrd : rd.Yields p) (hwr : wr.Collects written q) (hm : m.Copied p q written bytes) :
    m'.Copied p q written bytes := by
  obtain ⟨hs, hstage⟩ := hm
  cases h with
  | readerWaits h =>
    obtain ⟨rest, hrest, hbytes⟩ := hs.source
    exact ⟨⟨⟨rest, hrd.waits hrest h, hbytes⟩, hs.sink⟩, trivial⟩
  | readsOn h => exact ⟨hs.afterRead h hrd, trivial⟩
  | @fills s total a later h =>
    have hread := hs.afterRead h hrd
    exact ⟨⟨hread.source, hread.sink⟩, trivial⟩
  | endsStream h hdone hnone =>
    exact ⟨hs.afterRead h hrd, hs.endsStream h hrd hsized.2 hnone⟩
  | readFails h => exact ⟨hs.afterRead h hrd, trivial⟩
  | writerWaits h => exact ⟨⟨hs.source, hwr.waits hs.sink h⟩, trivial⟩
  | writesOn h => exact ⟨hs.afterWrite h hwr, trivial⟩
  | drainsAgain h =>
    have hwrite := hs.afterWrite h hwr
    exact ⟨⟨hwrite.source, hwrite.sink⟩, trivial⟩
  | empties h =>
    have hwrite := hs.afterWrite h hwr
    exact ⟨⟨hwrite.source, hwrite.sink⟩, Stage.copied_behindDrain options written bytes _⟩
  | stalls h => exact ⟨hs.afterWrite h hwr, trivial⟩
  | writeFails h => exact ⟨hs.afterWrite h hwr, trivial⟩
  | flushWaits kind h =>
    refine ⟨⟨hs.source, hwr.flushWaits hs.sink h⟩, ?_⟩
    rcases kind with rfl | rfl
    · trivial
    · exact hstage
  | flushes h =>
    obtain ⟨_, hlater, _⟩ := hwr.flushes hs.sink h
    exact ⟨hs.afterFlush (.ok ()) hlater, trivial⟩
  | @finishes s later h =>
    obtain ⟨_, hlater, hwritten⟩ := hwr.flushes hs.sink h
    have hflush := hs.afterFlush (.ok ()) hlater
    have hbytes : bytes = delivered s.calls.toList := hstage
    refine ⟨⟨hflush.source, hflush.sink⟩, ?_, ?_⟩
    · show bytes = delivered (s.afterFlush (.ok ()) later).calls.toList
      rw [hbytes, State.calls_afterFlush]
      simp [Call.delivered]
    · show written later = acknowledged (s.afterFlush (.ok ()) later).calls.toList
      rw [hwritten, State.calls_afterFlush]
      simp [Call.acknowledged]
  | flushFails kind h =>
    obtain ⟨_, hlater, _⟩ := hwr.flushes hs.sink h
    exact ⟨hs.afterFlush _ hlater, trivial⟩
  | stays => exact ⟨hs, hstage⟩

end Polls

/-! ## The whole relay -/

theorem copied_moments (hrd : rd.Yields p) (hwr : wr.Collects written q) (options : RelayOptions)
    (ring : Ring) {source : ρ} {sink : ω} (hsource : p source bytes) (hsink : q sink []) (n : Nat) :
    (moments rd wr options ring source sink n).Copied p q written bytes := by
  refine moments_induction ?_ (fun hsized _ hm h => h.copied hsized hrd hwr hm) n
  have hfirst : (initial ring source sink).Copied p q bytes := ⟨⟨bytes, hsource, rfl⟩, hsink⟩
  unfold enterDrain
  split
  · next hempty =>
    rw [enterFill_of_empty hempty]
    exact ⟨hfirst, trivial⟩
  · exact ⟨hfirst, trivial⟩

/-- A relay between such endpoints ends well when it returns. What has come through then is what was
    in the ring, and all bytes of the reader behind it. -/
theorem Returned.copies (r : Returned) {p : r.ρ → List UInt8 → Prop} {q : r.ω → List UInt8 → Prop}
    {written : r.ω → List UInt8} (hrd : r.rd.raw.Yields p) (hwr : r.wr.raw.Collects written q)
    (hsource : p r.source bytes) (hsink : q r.sink []) :
    ∃ stats, r.result = .ok stats ∧ written r.state.sink = r.ring.contents ++ bytes := by
  obtain ⟨stats, hok⟩ := r.exists_ok hrd.obliges hwr.obliges ⟨bytes, hsource⟩ ⟨[], hsink⟩
  obtain ⟨n, hn⟩ := r.exists_moments
  have hcopied := (copied_moments hrd hwr r.options r.ring hsource hsink n).stage
  rw [hn, hok] at hcopied
  obtain ⟨hbytes, hwritten⟩ := hcopied
  have hconserves := r.balanced.conserves
  rw [r.contents_of_ok hok, List.append_nil] at hconserves
  refine ⟨stats, hok, ?_⟩
  calc written r.state.sink
      = acknowledged r.calls := hwritten
    _ = r.ring.contents ++ delivered r.calls := hconserves
    _ = r.ring.contents ++ bytes := by rw [hbytes]; rfl

/-- And it returns. -/
theorem exists_runWithin_of_copying {rd : WaitingReader ρ} {wr : WaitingWriter ω}
    (hrd : rd.raw.Yields p) (hwr : wr.raw.Collects written q) (options : RelayOptions)
    (ring : Ring) {source : ρ} {sink : ω} (hsource : p source bytes) (hsink : q sink []) :
    ∃ n outcome stats, runWithin rd wr options n (start wr options ring source sink) =
        some outcome ∧ outcome.result = .ok stats ∧
      written outcome.state.sink = ring.contents ++ bytes := by
  obtain ⟨n, s, result, hended⟩ :=
    exists_rounds_eq_ended wr options ring sink (hrd.runsDry hsource).givesOut
  have hwithin : runWithin rd wr options n (start wr options ring source sink) =
      some ⟨result, s⟩ := runWithin_start_eq_some_iff.mpr hended
  obtain ⟨stats, hok, hwritten⟩ :=
    (Returned.ofRunWithin hwithin).copies hrd hwr hsource hsink
  exact ⟨n, _, stats, hwithin, hok, hwritten⟩

end Relay

/-! ## Stored endpoints -/

theorem Cells.overlay_map_some (slice bytes : List UInt8) (h : bytes.length ≤ slice.length) :
    (overlay slice (bytes.map some)).take bytes.length = bytes := by
  induction bytes generalizing slice with
  | nil => rfl
  | cons b bytes ih =>
    cases slice with
    | nil => simp at h
    | cons c slice => simpa [overlay] using ih slice (by simpa using h)

theorem StoredSource.yields : reader.raw.Yields fun source bytes => source = .holding bytes where
  waits {source later bytes room} hsource hpoll := by
    subst hsource
    cases hpoll
  answers {source later bytes room answer} hsource hpoll := by
    subst hsource
    cases hpoll
    have hlength : (bytes.take room).length = min room bytes.length := List.length_take
    refine ⟨(bytes.take room).length, rfl, by omega, by omega, ?_, ?_, ?_⟩
    · intro hroom hsome
      have := List.length_pos_iff.mpr hsome
      omega
    · rw [hlength, List.drop_eq_drop_min]
    · intro slice hslice
      have hfits : (bytes.take room).length ≤ slice.length := by omega
      simp only [ReadAnswer.delivered, if_pos hfits]
      rw [Cells.overlay_map_some slice _ hfits, hlength, List.take_eq_take_min]

theorem StoredSource.settled_unreadable (cause : IoError) (room : Nat) :
    reader.settled.read (.unreadable cause) room = (⟨[], .error cause⟩, .unreadable cause) :=
  WaitingReader.settled_of_ready rfl

theorem StoredSource.behind_unreadable (cause : IoError) (rooms : List Nat) :
    reader.settled.behind (.unreadable cause) rooms = .unreadable cause := by
  induction rooms with
  | nil => rfl
  | cons room rooms ih =>
    rw [Reader.behind, settled_unreadable, ih]

/-- A stored source comes to its end, or fails every call, unless it is endless. -/
theorem StoredSource.givesOut {source : StoredSource} (h : source ≠ .endless) :
    reader.settled.GivesOut source := by
  cases source with
  | holding rest => exact (StoredSource.yields.runsDry rfl).givesOut
  | endless => exact absurd rfl h
  | unreadable cause =>
    intro rooms hpos
    refine ⟨0, fun m _ k => ?_⟩
    rw [behind_unreadable, settled_unreadable]
    nofun

theorem StoredSink.collects :
    writer.raw.Collects (fun sink => sink.taken.toList)
      fun sink bytes => sink = { kind := .stored, taken := bytes.toArray } where
  waits {sink later bytes offered} hsink hpoll := by
    subst hsink
    cases hpoll
  answers {sink later bytes offered answer} hsink hpoll := by
    subst hsink
    cases hpoll
    refine ⟨offered.length, rfl, Nat.le_refl _, List.length_pos_iff.mpr, ?_⟩
    simp [write]
  flushWaits {sink later bytes} hsink hflush := by cases hflush
  flushes {sink later bytes answer} hsink hflush := by
    subst hsink
    cases hflush
    exact ⟨rfl, rfl, rfl⟩

end RingRelay
