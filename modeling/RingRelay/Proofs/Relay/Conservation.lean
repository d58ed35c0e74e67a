import RingRelay.Endpoint.Script
import RingRelay.Proofs.Ring.Flow
import RingRelay.Relay.Ending
/- A relay conserves its stream, however it ends.

   `Leads rd wr s s'` says that a relay came from `s` to `s'` by calls that its endpoints answered
   and whose account of bytes comes out even. Every piece of a relay leads from its first state to
   its last, and the relation is transitive, so a relay leads from its beginning to wherever it
   stands after any number of rounds (`leads_rounds`). Between two rounds, and after a good end, no
   byte is left in the ring (`drained_rounds`).

   `Chain` is any number of relays one after another through one ring, each with endpoints and
   options of its own and each ended well or badly. -/
namespace RingRelay.Relay

variable {ρ ω : Type} {rd : WaitingReader ρ} {wr : WaitingWriter ω} {options : RelayOptions}

/-- One call of a relay: of its reader, which leaves the writer as it is, or of its writer. -/
inductive Turn (rd : WaitingReader ρ) (wr : WaitingWriter ω) : ρ × ω → Call → ρ × ω → Prop
  | reader {source source' : ρ} {call : Call} (sink : ω) (h : rd.Turn source call source') :
      Turn rd wr (source, sink) call (source', sink)
  | writer {sink sink' : ω} {call : Call} (source : ρ) (h : wr.Turn sink call sink') :
      Turn rd wr (source, sink) call (source, sink')

/-- From `s` the relay came to `s'` by some calls more, which its endpoints answered. -/
def Leads (rd : WaitingReader ρ) (wr : WaitingWriter ω) (s s' : State ρ ω) : Prop :=
  ∃ calls, s'.calls.toList = s.calls.toList ++ calls ∧
    Served (Turn rd wr) (s.source, s.sink) calls (s'.source, s'.sink) ∧
    Balanced s.ring calls s'.ring

theorem Leads.refl (s : State ρ ω) : Leads rd wr s s :=
  ⟨[], (List.append_nil _).symm, .nil _, .refl s.ring⟩

theorem Leads.trans {s s' s'' : State ρ ω} (h₁ : Leads rd wr s s') (h₂ : Leads rd wr s' s'') :
    Leads rd wr s s'' := by
  obtain ⟨calls, hcalls, hserved, hbalanced⟩ := h₁
  obtain ⟨more, hmore, hserved', hbalanced'⟩ := h₂
  refine ⟨calls ++ more, ?_, hserved.append hserved', hbalanced.trans hbalanced'⟩
  rw [hmore, hcalls, List.append_assoc]

/-- Where the relay stands, running or ended. -/
def Progress.state : Progress ρ ω → State ρ ω
  | .running s => s
  | .ended s _ => s

/-! ## The pieces of a relay -/

theorem leads_afterDrain (rd : WaitingReader ρ) (wr : WaitingWriter ω) (s : State ρ ω) :
    Leads rd wr s (s.afterDrain (s.ring.drainWaiting wr s.sink)) := by
  have hserved := Ring.served_drainWaitingFrom wr s.ring s.sink 0
  refine ⟨(s.ring.drainWaiting wr s.sink).calls, ?_, ?_, ?_⟩
  · simp [State.afterDrain]
  · exact hserved.map (fun sink => (s.source, sink)) (.writer s.source)
  · exact (Ring.moves_drainWaitingFrom wr s.ring s.sink 0).toBalanced

theorem leads_afterFill (rd : WaitingReader ρ) (wr : WaitingWriter ω) (s : State ρ ω) :
    Leads rd wr s (s.afterFill (s.ring.fillWaiting rd s.source)) := by
  have hserved := Ring.served_fillWaitingFrom rd s.ring s.source 0
  refine ⟨(s.ring.fillWaiting rd s.source).calls, ?_, ?_, ?_⟩
  · simp [State.afterFill]
  · exact hserved.map (fun source => (source, s.sink)) (.reader s.sink)
  · exact (Ring.moves_fillWaitingFrom rd s.ring s.source 0).toBalanced

theorem leads_afterFlush (rd : WaitingReader ρ) {s : State ρ ω} {answer : FlushAnswer} {later : ω}
    (h : wr.flush s.sink = (answer, later)) : Leads rd wr s (s.afterFlush answer later) := by
  refine ⟨[.flush answer], ?_, ?_, ?_⟩
  · simp [State.afterFlush]
  · exact .single (.writer s.source (.flush h))
  · exact .of_unmoved rfl rfl rfl rfl rfl

/-- A drain of a ring that is not empty, by the result of its first transfer. -/
theorem emptyInto_of_result {s : State ρ ω} (wr : WaitingWriter ω) (hsize : 0 < s.ring.size) :
    emptyInto wr s =
      match (s.ring.drainWaiting wr s.sink).result with
      | .error error =>
        .ended (s.afterDrain (s.ring.drainWaiting wr s.sink)) (.error (.ring error))
      | .ok 0 =>
        .ended (s.afterDrain (s.ring.drainWaiting wr s.sink))
          (.error (.stalledWriter s.ring.size))
      | .ok (n + 1) =>
        emptyInto wr ((s.afterDrain (s.ring.drainWaiting wr s.sink)).countTaken (n + 1)) := by
  rw [emptyInto, if_pos hsize]
  split <;> next h => rw [h]

theorem leads_emptyInto (rd : WaitingReader ρ) (wr : WaitingWriter ω) (s : State ρ ω) :
    Leads rd wr s (emptyInto wr s).state := by
  fun_induction emptyInto wr s with
  | case1 s => exact leads_afterDrain rd wr s
  | case2 s => exact leads_afterDrain rd wr s
  | case3 s _ n _ ih =>
    -- Counting what was taken touches neither the ring nor the calls.
    have hfirst :
        Leads rd wr s ((s.afterDrain (s.ring.drainWaiting wr s.sink)).countTaken (n + 1)) :=
      leads_afterDrain rd wr s
    exact hfirst.trans ih
  | case4 s => exact .refl s

theorem leads_flushSink (rd : WaitingReader ρ) (wr : WaitingWriter ω) (s : State ρ ω) :
    Leads rd wr s (flushSink wr s).state := by
  unfold flushSink
  split
  · next later h => exact leads_afterFlush rd h
  · next cause later h => exact leads_afterFlush rd h

theorem leads_drainAll (rd : WaitingReader ρ) (wr : WaitingWriter ω) (options : RelayOptions)
    (s : State ρ ω) : Leads rd wr s (drainAll wr options s).state := by
  have hempty := leads_emptyInto rd wr s
  unfold drainAll
  split
  · exact .refl s
  · split
    · next s' result h =>
      rw [h] at hempty
      exact hempty
    · next s' h =>
      rw [h] at hempty
      split
      · exact hempty.trans (leads_flushSink rd wr s'.countDrain)
      · exact hempty

theorem leads_finish (rd : WaitingReader ρ) (wr : WaitingWriter ω) (s : State ρ ω) :
    Leads rd wr s (finish wr s).state := by
  have hflush := leads_flushSink rd wr s
  unfold finish
  split
  · next s' result h =>
    rw [h] at hflush
    exact hflush
  · next s' h =>
    rw [h] at hflush
    exact hflush

theorem leads_round (rd : WaitingReader ρ) (wr : WaitingWriter ω) (options : RelayOptions)
    (s : State ρ ω) : Leads rd wr s (round rd wr options s).state := by
  have hfill := leads_afterFill rd wr s
  unfold round
  split
  · exact hfill
  · exact hfill.trans (leads_finish rd wr _)
  · next n _ =>
    have hcount : Leads rd wr s
        ((s.afterFill (s.ring.fillWaiting rd s.source)).countFill (n + 1)) := hfill
    exact hcount.trans (leads_drainAll rd wr options _)

/-- The state in which a relay begins. -/
def initial (ring : Ring) (source : ρ) (sink : ω) : State ρ ω :=
  { ring
    source
    sink
    stats := { bytesIn := ring.size, bytesOut := 0, fills := 0, drains := 0 }
    calls := #[]
    events := #[] }

/-- A relay leads from its beginning to where it stands after any number of rounds. -/
theorem leads_rounds (rd : WaitingReader ρ) (wr : WaitingWriter ω) (options : RelayOptions)
    (ring : Ring) (source : ρ) (sink : ω) (n : Nat) :
    Leads rd wr (initial ring source sink) (rounds rd wr options ring source sink n).state := by
  induction n with
  | zero => exact leads_drainAll rd wr options (initial ring source sink)
  | succ n ih =>
    unfold rounds
    cases h : rounds rd wr options ring source sink n with
    | running s =>
      rw [h] at ih
      exact ih.trans (leads_round rd wr options s)
    | ended s result =>
      rw [h] at ih
      exact ih

/-! ## Nothing is left between rounds -/

/-- A relay that goes on, or that ended well, has no byte left in the ring. -/
def Progress.Drained : Progress ρ ω → Prop
  | .running s => s.ring.size = 0
  | .ended s (.ok _) => s.ring.size = 0
  | .ended _ (.error _) => True

theorem drained_emptyInto (wr : WaitingWriter ω) (s : State ρ ω) : (emptyInto wr s).Drained := by
  fun_induction emptyInto wr s with
  | case1 => trivial
  | case2 => trivial
  | case3 _ _ _ _ ih => exact ih
  | case4 s h =>
    show s.ring.size = 0
    omega

theorem drained_flushSink (wr : WaitingWriter ω) {s : State ρ ω} (h : s.ring.size = 0) :
    (flushSink wr s).Drained := by
  unfold flushSink
  split
  · exact h
  · trivial

theorem drained_drainAll (wr : WaitingWriter ω) (options : RelayOptions) (s : State ρ ω) :
    (drainAll wr options s).Drained := by
  have hempty := drained_emptyInto wr s
  unfold drainAll
  split
  · next h => exact h
  · split
    · next s' result h =>
      rw [h] at hempty
      exact hempty
    · next s' h =>
      rw [h] at hempty
      split
      · exact drained_flushSink wr hempty
      · exact hempty

theorem drained_finish (wr : WaitingWriter ω) {s : State ρ ω} (h : s.ring.size = 0) :
    (finish wr s).Drained := by
  have hflush := drained_flushSink wr h
  unfold finish
  split
  · next s' result hs =>
    rw [hs] at hflush
    exact hflush
  · next s' hs =>
    rw [hs] at hflush
    exact hflush

/-- A fill that brought nothing leaves an empty ring empty. -/
theorem size_fillWaiting_of_zero {ring : Ring} {source : ρ} (hsize : ring.size = 0)
    (h : (ring.fillWaiting rd source).result = .ok 0) :
    (ring.fillWaiting rd source).ring.size = 0 := by
  have hmoves := Ring.moves_fillWaitingFrom rd ring source 0
  have hcount := hmoves.counts
  rw [show (Ring.fillWaitingFrom rd ring source 0).result = .ok 0 from h] at hcount
  have hlen := congrArg List.length hmoves.conserves
  simp only [Counts, List.length_append, Ring.length_contents] at hcount hlen
  show (Ring.fillWaitingFrom rd ring source 0).ring.size = 0
  omega

theorem drained_round (rd : WaitingReader ρ) (wr : WaitingWriter ω) (options : RelayOptions)
    {s : State ρ ω} (hsize : s.ring.size = 0) : (round rd wr options s).Drained := by
  unfold round
  split
  · trivial
  · next h =>
    apply drained_finish
    exact size_fillWaiting_of_zero hsize h
  · exact drained_drainAll wr options _

theorem drained_rounds (rd : WaitingReader ρ) (wr : WaitingWriter ω) (options : RelayOptions)
    (ring : Ring) (source : ρ) (sink : ω) (n : Nat) :
    (rounds rd wr options ring source sink n).Drained := by
  induction n with
  | zero => exact drained_drainAll wr options (initial ring source sink)
  | succ n ih =>
    unfold rounds
    cases h : rounds rd wr options ring source sink n with
    | running s =>
      rw [h] at ih
      exact drained_round rd wr options ih
    | ended s result =>
      rw [h] at ih
      exact ih

/-! ## So many rounds at most -/

theorem runWithin_next (rd : WaitingReader ρ) (wr : WaitingWriter ω) (options : RelayOptions)
    (n : Nat) (progress : Progress ρ ω) :
    runWithin rd wr options n (progress.next rd wr options) =
      runWithin rd wr options (n + 1) progress := by
  cases progress with
  | running s => rfl
  | ended s result => cases n <;> rfl

/-- Rounds that have been gone through need not be counted. -/
theorem runWithin_rounds (rd : WaitingReader ρ) (wr : WaitingWriter ω) (options : RelayOptions)
    (ring : Ring) (source : ρ) (sink : ω) (n k : Nat) :
    runWithin rd wr options n (rounds rd wr options ring source sink k) =
      runWithin rd wr options (n + k) (start wr options ring source sink) := by
  induction k generalizing n with
  | zero => rfl
  | succ k ih =>
    rw [rounds, runWithin_next, ih]
    congr 1
    omega

/-- Going through at most `n` rounds tells where the relay stands after `n` rounds, if it is over. -/
theorem runWithin_start_eq_some_iff {ring : Ring} {source : ρ} {sink : ω} {n : Nat}
    {s : State ρ ω} {result : Except RelayError RelayStats} :
    runWithin rd wr options n (start wr options ring source sink) = some ⟨result, s⟩ ↔
      rounds rd wr options ring source sink n = .ended s result := by
  have hnone := runWithin_rounds rd wr options ring source sink 0 n
  rw [Nat.zero_add] at hnone
  rw [← hnone]
  cases rounds rd wr options ring source sink n with
  | running s => simp [runWithin]
  | ended s' result' =>
    simp only [runWithin, Option.some.injEq, Outcome.mk.injEq, Progress.ended.injEq, and_comm]

/-- More rounds do not change how a relay ended. -/
theorem runWithin_mono {progress : Progress ρ ω} {outcome : Outcome ρ ω} {n m : Nat} (hle : n ≤ m)
    (h : runWithin rd wr options n progress = some outcome) :
    runWithin rd wr options m progress = some outcome := by
  induction n generalizing progress m with
  | zero =>
    cases progress with
    | running s => cases h
    | ended s result => cases m <;> exact h
  | succ n ih =>
    cases progress with
    | running s =>
      cases m with
      | zero => cases hle
      | succ m => exact ih (m := m) (Nat.le_of_succ_le_succ hle) h
    | ended s result => cases m <;> exact h

theorem pumpWithin_mono {memory capacity : Nat} {source : ρ} {sink : ω} {pumped : Pumped ρ ω}
    {n m : Nat} (hle : n ≤ m)
    (h : pumpWithin rd wr options memory capacity source sink n = some pumped) :
    pumpWithin rd wr options memory capacity source sink m = some pumped := by
  unfold pumpWithin at h ⊢
  split at h
  · exact h
  · obtain ⟨outcome, houtcome, rfl⟩ := Option.map_eq_some_iff.mp h
    rw [runWithin_mono hle houtcome]
    rfl

/-! ## Relays that returned -/

/-- A relay that goes through all its rounds ends as one of them does. -/
theorem exists_rounds_eq_runFrom (ends : rd.Ends) (wr : WaitingWriter ω) (options : RelayOptions)
    (ring : Ring) (source : ρ) (sink : ω) {progress : Progress ρ ω} {n : Nat}
    (h : rounds rd wr options ring source sink n = progress) :
    ∃ m, rounds rd wr options ring source sink m =
      .ended (runFrom ends wr options progress).state
        (runFrom ends wr options progress).result := by
  fun_induction runFrom ends wr options progress generalizing n with
  | case1 s result => exact ⟨n, h⟩
  -- One round more either ends the relay or is where the induction goes on.
  | case2 s s' result hround => exact ⟨n + 1, by rw [rounds, h, Progress.next, hround]⟩
  | case3 s s' hround ih =>
    have hnext : rounds rd wr options ring source sink (n + 1) = .running s' := by
      rw [rounds, h, Progress.next, hround]
    exact ih hnext

/-- A relay that returned: what it was given, and how it ended after some number of rounds. -/
structure Returned where
  {ρ ω : Type}
  rd : WaitingReader ρ
  wr : WaitingWriter ω
  options : RelayOptions
  ring : Ring
  source : ρ
  sink : ω
  state : State ρ ω
  result : Except RelayError RelayStats
  ended : ∃ n, rounds rd wr options ring source sink n = .ended state result

namespace Returned

/-- The endpoint calls of the relay, in order. -/
def calls (r : Returned) : List Call := r.state.calls.toList

theorem leads (r : Returned) :
    Leads r.rd r.wr (initial r.ring r.source r.sink) r.state := by
  obtain ⟨n, hn⟩ := r.ended
  have hleads := leads_rounds r.rd r.wr r.options r.ring r.source r.sink n
  rwa [hn] at hleads

theorem served (r : Returned) :
    Served (Turn r.rd r.wr) (r.source, r.sink) r.calls (r.state.source, r.state.sink) := by
  obtain ⟨calls, hcalls, hserved, _⟩ := r.leads
  rwa [Returned.calls, hcalls]

theorem balanced (r : Returned) : Balanced r.ring r.calls r.state.ring := by
  obtain ⟨calls, hcalls, _, hbalanced⟩ := r.leads
  rwa [Returned.calls, hcalls]

theorem contents_of_ok (r : Returned) {stats : RelayStats} (h : r.result = .ok stats) :
    r.state.ring.contents = [] := by
  obtain ⟨n, hn⟩ := r.ended
  have hdrained := drained_rounds r.rd r.wr r.options r.ring r.source r.sink n
  rw [hn, h] at hdrained
  exact (Ring.contents_eq_nil_iff _).mpr hdrained

end Returned

/-- The relay from a reader whose stream ends, which always returns. -/
def Returned.ofRun (ends : rd.Ends) (wr : WaitingWriter ω) (options : RelayOptions) (ring : Ring)
    (source : ρ) (sink : ω) : Returned :=
  { rd
    wr
    options
    ring
    source
    sink
    state := (run ends wr options ring source sink).state
    result := (run ends wr options ring source sink).result
    ended := exists_rounds_eq_runFrom (n := 0) ends wr options ring source sink rfl }

/-- A relay that was over within a number of rounds. -/
def Returned.ofRunWithin {ring : Ring} {source : ρ} {sink : ω} {n : Nat} {outcome : Outcome ρ ω}
    (h : runWithin rd wr options n (start wr options ring source sink) = some outcome) : Returned :=
  { rd
    wr
    options
    ring
    source
    sink
    state := outcome.state
    result := outcome.result
    ended := ⟨n, runWithin_start_eq_some_iff.mp h⟩ }

/-- Relays through one ring, one after another: each finds the ring as the one before left it. -/
def Chain : Ring → List Returned → Ring → Prop
  | first, [], last => last = first
  | first, r :: rs, last => r.ring = first ∧ Chain r.state.ring rs last

theorem Chain.balanced {first last : Ring} {relays : List Returned} (h : Chain first relays last) :
    Balanced first (relays.flatMap Returned.calls) last := by
  induction relays generalizing first with
  | nil =>
    obtain rfl : last = first := h
    exact .refl last
  | cons r rs ih =>
    obtain ⟨rfl, hrest⟩ := h
    exact r.balanced.trans (ih hrest)

/-- However the relays through one ring ended, no byte was lost, doubled or moved out of its place:
    all that was taken over and what is left in the ring are what was in the ring at first and all
    that was delivered. Each relay for itself keeps that account over the calls its own endpoints
    answered, and one that ended well has passed on everything. -/
theorem conserves_of_chain {first last : Ring} {relays : List Returned}
    (h : Chain first relays last) :
    acknowledged (relays.flatMap Returned.calls) ++ last.contents =
        first.contents ++ delivered (relays.flatMap Returned.calls) ∧
      ∀ r ∈ relays,
        Served (Turn r.rd r.wr) (r.source, r.sink) r.calls (r.state.source, r.state.sink) ∧
        acknowledged r.calls ++ r.state.ring.contents = r.ring.contents ++ delivered r.calls ∧
        ∀ stats, r.result = .ok stats →
          r.state.ring.contents = [] ∧
            acknowledged r.calls = r.ring.contents ++ delivered r.calls := by
  refine ⟨h.balanced.conserves, ?_⟩
  intro r _
  refine ⟨r.served, r.balanced.conserves, ?_⟩
  intro stats hok
  have hnone := r.contents_of_ok hok
  have hconserves := r.balanced.conserves
  rw [hnone, List.append_nil] at hconserves
  exact ⟨hnone, hconserves⟩

/-- A relay whose writer breaks after one byte, and a second one with other endpoints that goes on
    with what the first left. -/
theorem conserves_of_chain_retry :
    ∃ first, Ring.create 8 3 = .ok first ∧ ∃ r₁ r₂ : Returned,
      Chain first [r₁, r₂] r₂.state.ring ∧
        acknowledged (r₁.calls ++ r₂.calls) ++ r₂.state.ring.contents =
          delivered (r₁.calls ++ r₂.calls) := by
  let first : Ring := ⟨Array.replicate 3 0, 0, 0, by decide, by decide, by decide⟩
  let r₁ := Returned.ofRun ReadScript.ends WriteScript.waitingWriter {} first
    [.data [1, 2, 3, 4]] ⟨[.accept 1, .fail (.plain .brokenPipe)], none, []⟩
  let r₂ := Returned.ofRun ReadScript.ends WriteScript.waitingWriter {} r₁.state.ring
    [.notReady, .data [5]] ⟨[], none, []⟩
  have hchain : Chain first [r₁, r₂] r₂.state.ring := ⟨rfl, rfl, rfl⟩
  refine ⟨first, rfl, r₁, r₂, hchain, ?_⟩
  have hconserves := (conserves_of_chain hchain).1
  rw [@Ring.contents_of_create 8 3 first rfl] at hconserves
  simpa using hconserves

end RingRelay.Relay
