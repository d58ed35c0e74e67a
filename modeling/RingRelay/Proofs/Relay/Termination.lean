import RingRelay.Proofs.Endpoint.Pauses
import RingRelay.Proofs.Guarded.Relay
import RingRelay.Proofs.Relay.Unready
/- Relays that come to an end.

   `Relay.run` goes through the rounds of a relay by a bound on what its reader can still deliver. No
   bound is needed: a reader runs dry (`Reader.RunsDry`) if in any sequence of calls there comes one
   from which on all are at the end of the stream, whenever that is. It gives out (`Reader.GivesOut`)
   if none of these calls brings a byte, be it at the end of the stream or failing. The relay from
   such a reader ends (`exists_rounds_eq_ended`). A relay that goes on has an empty ring between two
   rounds, so each round reads. If it went on for ever, its reads would be such a sequence, and the
   first read of some round would bring nothing, which ends the relay. -/
namespace RingRelay

/-- A reader behind some calls, with as much room for each as the list says. -/
def Reader.behind {ρ : Type} (rd : Reader ρ) (source : ρ) : List Nat → ρ
  | [] => source
  | room :: rooms => rd.behind (rd.read source room).2 rooms

/-- In any sequence of calls, each with some room, the reader is at the end of its stream for good
    from some call on. -/
def Reader.RunsDry {ρ : Type} (rd : Reader ρ) (source : ρ) : Prop :=
  ∀ rooms : Nat → Nat, (∀ i, 0 < rooms i) → ∃ n, ∀ m, n ≤ m →
    (rd.read (rd.behind source ((List.range m).map rooms)) (rooms m)).1.result = .ok 0

/-- In any sequence of calls, each with some room, no call brings a byte from some call on. -/
def Reader.GivesOut {ρ : Type} (rd : Reader ρ) (source : ρ) : Prop :=
  ∀ rooms : Nat → Nat, (∀ i, 0 < rooms i) → ∃ n, ∀ m, n ≤ m → ∀ k,
    (rd.read (rd.behind source ((List.range m).map rooms)) (rooms m)).1.result ≠ .ok (k + 1)

theorem Reader.RunsDry.givesOut {ρ : Type} {rd : Reader ρ} {source : ρ} (h : rd.RunsDry source) :
    rd.GivesOut source := by
  intro rooms hpos
  obtain ⟨n, hend⟩ := h rooms hpos
  refine ⟨n, fun m hm k hk => ?_⟩
  rw [hend m hm] at hk
  cases hk

theorem Reader.behind_append {ρ : Type} (rd : Reader ρ) (source : ρ) (rooms more : List Nat) :
    rd.behind source (rooms ++ more) = rd.behind (rd.behind source rooms) more := by
  induction rooms generalizing source with
  | nil => rfl
  | cons room rooms ih => exact ih _

/-! ## Calls in lists without end -/

section Lists

variable {lists : Nat → List Nat}

theorem flatMap_range_succ (lists : Nat → List Nat) (n : Nat) :
    (List.range (n + 1)).flatMap lists = (List.range n).flatMap lists ++ lists n := by
  rw [List.range_succ, List.flatMap_append, List.flatMap_singleton]

theorem le_length_flatMap_range (h : ∀ n, lists n ≠ []) (n : Nat) :
    n ≤ ((List.range n).flatMap lists).length := by
  induction n with
  | zero => exact Nat.zero_le _
  | succ n ih =>
    have hpos := List.length_pos_iff.mpr (h n)
    rw [flatMap_range_succ, List.length_append]
    omega

/-- Lists of which none is empty, one after another, are a sequence. -/
theorem exists_sequence (h : ∀ n, lists n ≠ []) :
    ∃ sequence : Nat → Nat, (∀ i, ∃ n, sequence i ∈ lists n) ∧
      ∀ n, (List.range ((List.range n).flatMap lists).length).map sequence =
        (List.range n).flatMap lists := by
  have hgrows : ∀ n k, (List.range n).flatMap lists <+: (List.range (n + k)).flatMap lists := by
    intro n k
    rw [List.range_add, List.flatMap_append]
    exact List.prefix_append _ _
  -- Number `i` is in the first `i + 1` lists, and at the same place in all beginnings that have it.
  have hin : ∀ i, i < ((List.range (i + 1)).flatMap lists).length :=
    fun i => le_length_flatMap_range h (i + 1)
  refine ⟨fun i => ((List.range (i + 1)).flatMap lists).get ⟨i, hin i⟩, ?_, ?_⟩
  · intro i
    obtain ⟨n, _, hmem⟩ := List.mem_flatMap.mp (List.get_mem _ ⟨i, hin i⟩)
    exact ⟨n, hmem⟩
  · intro n
    apply List.ext_getElem
    · rw [List.length_map, List.length_range]
    · intro i _ hi
      rw [List.getElem_map, List.getElem_range, List.get_eq_getElem]
      rcases Nat.le_total (i + 1) n with hle | hle
      · obtain ⟨k, rfl⟩ := Nat.exists_eq_add_of_le hle
        exact (hgrows (i + 1) k).getElem (hin i)
      · obtain ⟨k, hk⟩ := Nat.exists_eq_add_of_le hle
        have hbeginning := hgrows n k
        rw [← hk] at hbeginning
        exact (hbeginning.getElem hi).symm

end Lists

/-- Of calls that come in lists without end, the first one of some list brings nothing. -/
theorem Reader.GivesOut.exists_first {ρ : Type} {rd : Reader ρ} {source : ρ}
    (h : rd.GivesOut source) {rooms : Nat → List Nat} (hpos : ∀ n, ∀ room ∈ rooms n, 0 < room)
    (hne : ∀ n, rooms n ≠ []) :
    ∃ n, ∀ room rest, rooms n = room :: rest → ∀ k,
      (rd.read (rd.behind source ((List.range n).flatMap rooms)) room).1.result ≠ .ok (k + 1) := by
  obtain ⟨sequence, hmem, hsequence⟩ := exists_sequence hne
  have hsome : ∀ i, 0 < sequence i := by
    intro i
    obtain ⟨n, hn⟩ := hmem i
    exact hpos n _ hn
  obtain ⟨n, hend⟩ := h sequence hsome
  refine ⟨n, fun room rest hrooms => ?_⟩
  -- The first call of list `n` has at least `n` calls before it.
  have hlater := hend _ (le_length_flatMap_range hne n)
  have hfirst : sequence ((List.range n).flatMap rooms).length = room := by
    have hnext := congrArg (fun list => list[((List.range n).flatMap rooms).length]?)
      (hsequence (n + 1))
    simpa [flatMap_range_succ, hrooms] using hnext
  rwa [hsequence n, hfirst] at hlater

namespace Ring

/-- A fill of a ring with room reads into the row behind the tail, and then perhaps once more. -/
theorem exists_rooms_fillFrom {ρ : Type} (rd : Reader ρ) (ring : Ring) (source : ρ) (total : Nat) :
    ∃ rooms, (∀ room ∈ rooms, 0 < room) ∧
      (fillFrom rd ring source total).endpoint = rd.behind source rooms ∧
      (0 < ring.writableRun → ∃ rest, rooms = ring.writableRun :: rest) := by
  fun_induction fillFrom rd ring source total with
  | case1 ring source total hrun reply a ha ih =>
    obtain ⟨rooms, hpos, hbehind, _⟩ := ih
    exact ⟨ring.writableRun :: rooms, List.forall_mem_cons.mpr ⟨hrun, hpos⟩, hbehind,
      fun _ => ⟨rooms, rfl⟩⟩
  | case2 ring source total hrun reply a ha =>
    exact ⟨[ring.writableRun], by simpa using hrun, rfl, fun _ => ⟨[], rfl⟩⟩
  | case3 ring source total hrun reply a error ha =>
    exact ⟨[ring.writableRun], by simpa using hrun, rfl, fun _ => ⟨[], rfl⟩⟩
  | case4 ring source total hrun =>
    exact ⟨[], by simp, rfl, fun hpos => absurd hpos hrun⟩

/-- A fill whose first read brings nothing brings nothing. -/
theorem result_fill_of_nothing {ρ : Type} {rd : Reader ρ} {ring : Ring} {source : ρ}
    (hrun : 0 < ring.writableRun)
    (hnone : ∀ k, (rd.read source ring.writableRun).1.result ≠ .ok (k + 1)) (k : Nat) :
    (ring.fill rd source).result ≠ .ok (k + 1) := by
  have hnot : (rd.read source ring.writableRun).1.result ≠ .ok ring.writableRun := by
    intro heq
    apply hnone (ring.writableRun - 1)
    rw [heq, Nat.sub_add_cancel hrun]
  obtain ⟨result, hreturns, hfill⟩ := fillFrom_of_not_full 0 hrun rfl hnot
  intro hresult
  rw [fill, hfill] at hresult
  obtain rfl : result = .ok (k + 1) := hresult
  obtain ⟨n, hanswer, _, hn⟩ := answer_of_returns hreturns
  rw [Nat.zero_add] at hn
  exact hnone k (hn ▸ hanswer)

end Ring

namespace Relay

variable {ρ ω : Type} {rd : WaitingReader ρ} {wr : WaitingWriter ω} {options : RelayOptions}

/-- A round after which the relay goes on began with a read that brought something. -/
theorem exists_rooms_of_round {s s' : State ρ ω} (hsize : s.ring.size = 0)
    (h : round rd wr options s = .running s') :
    ∃ rooms, (∀ room ∈ rooms, 0 < room) ∧ s'.source = rd.settled.behind s.source rooms ∧
      ∃ room rest k, rooms = room :: rest ∧
        (rd.settled.read s.source room).1.result = .ok (k + 1) := by
  have hrun : 0 < s.ring.writableRun := by
    have hlt := s.ring.position_lt_capacity
    rw [Ring.writableRun_of_size_eq_zero hsize]
    omega
  obtain ⟨rooms, hpos, hbehind, hrooms⟩ :=
    Ring.exists_rooms_fillFrom rd.settled s.ring s.source 0
  obtain ⟨rest, rfl⟩ := hrooms hrun
  unfold round at h
  rw [Ring.fillWaiting_eq_settled] at h
  split at h
  · cases h
  · exact absurd h (finish_ne_running wr _ _)
  · next k hresult =>
    have hfirst : ∃ k, (rd.settled.read s.source s.ring.writableRun).1.result = .ok (k + 1) := by
      apply Classical.byContradiction
      intro hnone
      exact Ring.result_fill_of_nothing hrun (not_exists.mp hnone) k hresult
    obtain ⟨k, hfirst⟩ := hfirst
    exact ⟨_, hpos, (source_of_drainAll h).trans hbehind, _, rest, k, rfl, hfirst⟩

/-- The reads of a relay that goes on for ever, in a list for each round: the first one of a list
    brings something. -/
theorem exists_rooms_of_forall_running {ring : Ring} {source : ρ} {sink : ω}
    (hruns : ∀ n, ∃ s, rounds rd wr options ring source sink n = .running s) :
    ∃ rooms : Nat → List Nat, (∀ n, ∀ room ∈ rooms n, 0 < room) ∧
      ∀ n, ∃ room rest k, rooms n = room :: rest ∧
        (rd.settled.read (rd.settled.behind source ((List.range n).flatMap rooms)) room).1.result =
          .ok (k + 1) := by
  obtain ⟨states, hstates⟩ := Classical.skolem.mp hruns
  have hround : ∀ n, ∃ rooms, (∀ room ∈ rooms, 0 < room) ∧
      (states (n + 1)).source = rd.settled.behind (states n).source rooms ∧
      ∃ room rest k, rooms = room :: rest ∧
        (rd.settled.read (states n).source room).1.result = .ok (k + 1) := by
    intro n
    have hdrained := drained_rounds rd wr options ring source sink n
    rw [hstates n] at hdrained
    have hnext := hstates (n + 1)
    rw [rounds, hstates n] at hnext
    exact exists_rooms_of_round hdrained hnext
  obtain ⟨rooms, hrooms⟩ := Classical.skolem.mp hround
  have hsource : ∀ n, (states n).source =
      rd.settled.behind source ((List.range n).flatMap rooms) := by
    intro n
    induction n with
    | zero => exact source_of_drainAll (hstates 0)
    | succ n ih => rw [(hrooms n).2.1, ih, flatMap_range_succ, Reader.behind_append]
  refine ⟨rooms, fun n => (hrooms n).1, fun n => ?_⟩
  rw [← hsource n]
  exact (hrooms n).2.2

/-- A relay ends whose reader gives out. -/
theorem exists_rounds_eq_ended (wr : WaitingWriter ω) (options : RelayOptions) (ring : Ring)
    {source : ρ} (sink : ω) (hgivesOut : rd.settled.GivesOut source) :
    ∃ n s result, rounds rd wr options ring source sink n = .ended s result := by
  apply Classical.byContradiction
  intro hnever
  have hruns : ∀ n, ∃ s, rounds rd wr options ring source sink n = .running s := by
    intro n
    cases h : rounds rd wr options ring source sink n with
    | running s => exact ⟨s, rfl⟩
    | ended s result => exact absurd ⟨n, s, result, h⟩ hnever
  obtain ⟨rooms, hpos, hreads⟩ := exists_rooms_of_forall_running hruns
  have hne : ∀ n, rooms n ≠ [] := by
    intro n hnil
    obtain ⟨room, rest, k, heq, _⟩ := hreads n
    rw [hnil] at heq
    cases heq
  obtain ⟨n, hnone⟩ := hgivesOut.exists_first hpos hne
  obtain ⟨room, rest, k, heq, hsome⟩ := hreads n
  exact hnone room rest heq k hsome

end Relay

/-! ## Scripts -/

namespace ReadScript

/-- A call of a script that is not used up uses up some of it. -/
theorem left_read_lt {script : ReadScript} {room : Nat} (hsome : script ≠ []) (hroom : 0 < room) :
    left (read script room).2 < left script := by
  induction script with
  | nil => exact absurd rfl hsome
  | cons step rest ih =>
    cases step with
    | data bytes =>
      have hle := left_putBack_append (bytes.drop room) rest
      rw [List.length_drop] at hle
      show left (putBack (bytes.drop room) ++ rest) < bytes.length + 1 + left rest
      unfold putBack at hle ⊢
      split
      · show left rest < _
        omega
      · next hlong =>
        have hpos : room < bytes.length := by
          rw [List.isEmpty_iff, List.drop_eq_nil_iff] at hlong
          omega
        rw [if_neg hlong] at hle
        omega
    | eof => exact Nat.lt_add_of_pos_left Nat.one_pos
    | fail cause => exact Nat.lt_add_of_pos_left Nat.one_pos
    | report count => exact Nat.lt_add_of_pos_left Nat.one_pos
    | notReady =>
      show left (read rest room).2 < 1 + left rest
      by_cases hrest : rest = []
      · subst hrest
        exact Nat.one_pos
      · have := ih hrest
        omega

theorem left_behind_le (script : ReadScript) (rooms : List Nat) (hpos : ∀ room ∈ rooms, 0 < room) :
    left (waitingReader.settled.behind script rooms) ≤ left script - rooms.length := by
  induction rooms generalizing script with
  | nil => exact Nat.le_refl _
  | cons room rooms ih =>
    obtain ⟨hroom, hrooms⟩ := List.forall_mem_cons.mp hpos
    have hrest := ih (waitingReader.settled.read script room).2 hrooms
    have hread : left (waitingReader.settled.read script room).2 ≤ left script - 1 := by
      rw [settled_read]
      by_cases hsome : script = []
      · subst hsome
        exact Nat.le_refl 0
      · exact Nat.le_sub_one_of_lt (left_read_lt hsome hroom)
    rw [List.length_cons]
    show left (waitingReader.settled.behind _ rooms) ≤ _
    omega

theorem eq_nil_of_left_eq_zero {script : ReadScript} (h : left script = 0) : script = [] := by
  cases script with
  | nil => rfl
  | cons step rest => cases step <;> simp only [left] at h <;> omega

/-- Every script runs dry. -/
theorem runsDry (script : ReadScript) : waitingReader.settled.RunsDry script := by
  intro rooms hpos
  refine ⟨left script, fun m hm => ?_⟩
  have hle := left_behind_le script ((List.range m).map rooms) (by simp [hpos])
  rw [List.length_map, List.length_range] at hle
  have hnone : waitingReader.settled.behind script ((List.range m).map rooms) = [] :=
    eq_nil_of_left_eq_zero (by omega)
  rw [hnone, settled_read]
  exact congrArg Except.ok (Nat.zero_min _)

end ReadScript

namespace Relay

variable {ρ ω : Type}

/-- Draining to empty keeps its contract, whatever the writer does, and a program that does it
    returns. A writer that need not ever be ready is not called more often either, and a drain that
    does not end waits for it for ever. A relay whose reader runs dry ends, and so does the program
    that runs it. -/
theorem drains_and_ends (build : Build) (wr : WaitingWriter ω) (options : RelayOptions) :
    (∀ s : State ρ ω,
        (∃ turns flushes s' result, drainAll wr options s = .of s' result ∧
          s'.calls.toList = s.calls.toList ++ writeCalls turns ++ flushes ∧
          EmptyingContract wr.settled options s.ring s.sink turns flushes s'.ring s'.sink result) ∧
        ∀ {first : Ring} {b : Bare.State ρ ω}, b.Shows first s →
          ∃ p, Bare.drainAll build wr options b = pure p ∧ p.Shows first (drainAll wr options s)) ∧
      (∀ (rd : RawReader ρ) (wr : RawWriter ω) (s : State ρ ω), PollsContract rd wr options s) ∧
      ∀ (rd : WaitingReader ρ) (ring : Ring) (source : ρ) (sink : ω), rd.settled.RunsDry source →
        ∃ n s result, rounds rd wr options ring source sink n = .ended s result ∧
          ∃ b result', Bare.rounds build rd wr options ring.bare source sink n =
            pure (.ended b result') := by
  refine ⟨fun s => ⟨exists_emptyingContract wr options s, ?_⟩, ?_, ?_⟩
  · intro first b hshows
    exact Bare.drainAll_of_shows build wr options hshows
  · intro rd wr s
    exact pollsContract rd wr options s
  · intro rd ring source sink hdry
    obtain ⟨n, s, result, hended⟩ := exists_rounds_eq_ended wr options ring sink hdry.givesOut
    obtain ⟨p, hprogram, hshows⟩ := Bare.rounds_shows build rd wr options ring source sink n
    rw [hended] at hshows
    cases p with
    | running b => exact hshows.elim
    | ended b result' => exact ⟨n, s, result, hended, b, result', hprogram⟩

/-- A writer that takes one byte, and then nothing in its next two calls. -/
def reluctant : WriteScript := ⟨[.accept 1, .accept 0, .accept 0], none, []⟩

/-- Where the relay through `Ring.aroundEnd` stands when the writer has stalled: the second write of
    the first drain took nothing, and neither did the first one of the second drain. -/
def afterStall : State ReadScript WriteScript :=
  { ring := Ring.aroundEnd.consume 1 (by decide)
    source := []
    sink := ⟨[], none, []⟩
    stats := { bytesIn := 2, bytesOut := 1, fills := 0, drains := 0 }
    calls := #[.write [1] (.ok 1), .write [2] (.ok 0), .write [2] (.ok 0)]
    events := #[.writeReturned 1 1, .writeReturned 1 0, .shortWrite 1 0, .writeReturned 1 0,
      .shortWrite 1 0] }

theorem drainAll_reluctant :
    drainAll WriteScript.waitingWriter {} (initial .aroundEnd [] reluctant) =
      .ended afterStall (.error (.stalledWriter 1)) := by
  have hfirst : Ring.aroundEnd.drainWaiting WriteScript.waitingWriter reluctant =
      ⟨.ok 1, afterStall.ring, ⟨[.accept 0], none, []⟩, [.write [1] (.ok 1), .write [2] (.ok 0)],
        [.writeReturned 1 1, .writeReturned 1 0, .shortWrite 1 0]⟩ := by
    rw [Ring.drainWaiting, Ring.drainWaitingFrom_of_ready 0 (by decide) rfl]
    show (Ring.drainWaitingFrom _ _ _ _).after _ = _
    rw [Ring.drainWaitingFrom_of_ready _ (by decide) rfl]
    rfl
  have hsecond : afterStall.ring.drainWaiting WriteScript.waitingWriter ⟨[.accept 0], none, []⟩ =
      ⟨.ok 0, afterStall.ring, ⟨[], none, []⟩, [.write [2] (.ok 0)],
        [.writeReturned 1 0, .shortWrite 1 0]⟩ := by
    rw [Ring.drainWaiting, Ring.drainWaitingFrom_of_ready 0 (by decide) rfl]
    rfl
  unfold drainAll
  rw [if_neg (by decide), emptyInto_of_result _ (by decide)]
  simp only [initial, hfirst]
  rw [emptyInto_of_result _ (by decide)]
  simp only [State.countTaken, State.afterDrain, hsecond]
  rfl

/-- The program stalls on two bytes around the end of the array after three writes, and a relay ends
    whose reader lets it wait for its second byte. -/
theorem drains_and_ends_aroundEnd :
    (∃ p, Bare.drainAll .checked WriteScript.waitingWriter {}
        ⟨Ring.aroundEnd.bare, ([] : ReadScript), reluctant, []⟩ = pure p ∧
        p.Shows .aroundEnd (.ended afterStall (.error (.stalledWriter 1)))) ∧
      ∃ n s result, rounds ReadScript.waitingReader WriteScript.waitingWriter {} .aroundEnd
        [.data [7], .notReady, .data [8, 9]] ⟨[], none, []⟩ n = .ended s result := by
  obtain ⟨hdrains, _, hends⟩ := drains_and_ends (ρ := ReadScript) .checked WriteScript.waitingWriter {}
  constructor
  · rw [← drainAll_reluctant]
    exact (hdrains (initial .aroundEnd [] reluctant)).2 ⟨rfl, rfl, rfl, rfl, .nil _⟩
  · obtain ⟨n, s, result, hended, _⟩ := hends ReadScript.waitingReader .aroundEnd
      [.data [7], .notReady, .data [8, 9]] ⟨[], none, []⟩ (ReadScript.runsDry _)
    exact ⟨n, s, result, hended⟩

end Relay

end RingRelay
