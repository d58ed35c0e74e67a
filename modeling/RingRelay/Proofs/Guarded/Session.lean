import RingRelay.Endpoint.Script
import RingRelay.Proofs.Guarded.Relay
import RingRelay.Proofs.Relay.Conservation
import RingRelay.Proofs.Ring.Operation
/- Any use of a ring, done by a running program that keeps a journal.

   `Action` is one thing done with a ring: an operation, or a relay through it. A relay is left
   after some number of rounds, ended or not. An operation or a relay that is given up while an
   endpoint is not ready leaves the ring as it is left when that endpoint fails there, so these are
   uses of a ring as well.

   The journal has an entry for each time that the ring changed hands or contents: what was done, and
   the ring behind it. `Tally` counts the bytes that came in and went out since the ring was last made
   empty, and `Bare.Lawful` says where the cursors stand by that count. A program that begins with a
   new ring does not break down, shows what the ring shows, and each ring in its journal is lawful
   (`lawful_of_create`). -/
namespace RingRelay

inductive Action : Type 1
  | operation (op : Operation)
  | relay {ρ ω : Type} (rd : WaitingReader ρ) (wr : WaitingWriter ω) (options : RelayOptions)
      (source : ρ) (sink : ω) (rounds : Nat)

/-- What an action shows. A relay that has not ended has no result. -/
inductive Shown
  | operation (outcome : Outcome)
  | relay (calls : List Call) (result : Option (Except RelayError Unit))

/-- How a relay ended, if it has. -/
def Relay.Progress.result? {ρ ω : Type} : Relay.Progress ρ ω → Option (Except RelayError Unit)
  | .running _ => none
  | .ended _ result => some (result.map fun _ => ())

namespace Ring

def act (ring : Ring) : Action → Shown × Ring
  | .operation op => (.operation (ring.perform op).1, (ring.perform op).2)
  | .relay rd wr options source sink rounds =>
    let progress := Relay.rounds rd wr options ring source sink rounds
    (.relay progress.state.calls.toList progress.result?, progress.state.ring)

/-- Does one action after another. -/
def actAll (ring : Ring) : List Action → List Shown × Ring
  | [] => ([], ring)
  | action :: actions =>
    let first := ring.act action
    let rest := first.2.actAll actions
    (first.1 :: rest.1, rest.2)

end Ring

/-! ## The program and its journal -/

/-- What was done to a ring. -/
inductive Deed
  | wrote (count : Nat)
  | took (count : Nat)
  | emptied
  | called (call : Call)

/-- What an operation did to the ring, read off what it shows. -/
def Operation.deeds : Operation → Outcome → List Deed
  | .write bytes, ⟨.done, _⟩ => [.wrote bytes.length]
  | .read len, ⟨.bytes _, _⟩ => [.took len]
  | .empty, _ => [.emptied]
  | _, outcome => outcome.calls.map .called

/-- What an action did to the ring, read off what it shows. -/
def Action.deeds : Action → Shown → List Deed
  | .operation op, .operation outcome => op.deeds outcome
  | _, .relay calls _ => calls.map .called
  | _, _ => []

/-- What was done, each with the ring behind it. -/
abbrev Journal := List (Deed × Bare)

namespace Bare

/-- What a program has at the end of an action or of an operation. -/
structure Done (α : Type) where
  shown : α
  ring : Bare
  journal : Journal

def Transfer.done {ε : Type} (t : Transfer ε) : Done Outcome :=
  ⟨⟨.ofResult t.result, t.trace.map Prod.fst⟩, t.ring,
    t.trace.map fun entry => (.called entry.1, entry.2)⟩

section Program

variable (build : Build)

def perform (r : Bare) : Operation → Guarded (Done Outcome)
  | .write bytes => do
    match ← write build r bytes with
    | .ok later => pure ⟨⟨.done, []⟩, later, [(.wrote bytes.length, later)]⟩
    | .error error => pure ⟨⟨.refused error, []⟩, r, []⟩
  | .read len => do
    match ← read build r (List.replicate len 0) with
    | .ok (bytes, later) => pure ⟨⟨.bytes bytes, []⟩, later, [(.took len, later)]⟩
    | .error error => pure ⟨⟨.refused error, []⟩, r, []⟩
  | .peek len => do
    match ← peek build r (List.replicate len 0) with
    | .ok bytes => pure ⟨⟨.bytes bytes, []⟩, r, []⟩
    | .error error => pure ⟨⟨.refused error, []⟩, r, []⟩
  | .empty => pure ⟨⟨.done, []⟩, r.empty, [(.emptied, r.empty)]⟩
  | .fill rd source => do
    let t ← fill build rd.waiting.raw r source
    pure t.done
  | .fillWaiting rd source => do
    let t ← fill build rd.raw r source
    pure t.done
  | .drain wr sink => do
    let t ← drain build wr.waiting.raw r sink
    pure t.done
  | .drainWaiting wr sink => do
    let t ← drain build wr.raw r sink
    pure t.done

def State.done {ρ ω : Type} (s : State ρ ω) (result : Option (Except RelayError Unit)) :
    Done Shown :=
  ⟨.relay (s.trace.map Prod.fst) result, s.ring,
    s.trace.map fun entry => (.called entry.1, entry.2)⟩

def act (r : Bare) : Action → Guarded (Done Shown)
  | .operation op => do
    let done ← perform build r op
    pure ⟨.operation done.shown, done.ring, done.journal⟩
  | .relay rd wr options source sink n => do
    match ← rounds build rd wr options r source sink n with
    | .running s => pure (s.done none)
    | .ended s result => pure (s.done (some result))

def actAll (r : Bare) : List Action → Guarded (Done (List Shown))
  | [] => pure ⟨[], r, []⟩
  | action :: actions => do
    let first ← act build r action
    let rest ← actAll first.ring actions
    pure ⟨first.shown :: rest.shown, rest.ring, first.journal ++ rest.journal⟩

end Program

end Bare

/-! ## Where the cursors stand -/

/-- The bytes that came into a ring and those that went out of it. -/
structure Tally where
  appended : Nat
  consumed : Nat

namespace Tally

def after (t : Tally) : Deed → Tally
  | .wrote count => { t with appended := t.appended + count }
  | .took count => { t with consumed := t.consumed + count }
  | .emptied => ⟨0, 0⟩
  | .called call =>
    ⟨t.appended + call.delivered.length, t.consumed + call.acknowledged.length⟩

def afterAll (t : Tally) (journal : Journal) : Tally :=
  journal.foldl (fun t entry => t.after entry.1) t

end Tally

/-- The cursors of a ring of `capacity` cells stand where the tally has them. -/
structure Bare.Lawful (r : Bare) (capacity : Nat) (t : Tally) : Prop where
  length_eq : r.cells.size = capacity
  size_eq : r.size + t.consumed = t.appended
  size_le : r.size ≤ capacity
  position_eq : r.position = t.consumed % capacity
  position_lt : r.position < capacity
  tail_eq : (r.position + r.size) % capacity = t.appended % capacity

/-- Each ring of a journal is lawful, for the tally of all that was done up to it. -/
def Journal.Lawful (capacity : Nat) : Tally → Journal → Prop
  | _, [] => True
  | t, (deed, r) :: journal =>
    r.Lawful capacity (t.after deed) ∧ Journal.Lawful capacity (t.after deed) journal

/-- A journal between two rings keeps the law: if the first ring is lawful, each ring of the journal
    is, and so is the last one. -/
structure Journal.Keeps (journal : Journal) (ring last : Ring) : Prop where
  journal_lawful : ∀ {capacity : Nat} {t : Tally}, ring.bare.Lawful capacity t →
    Journal.Lawful capacity t journal
  last_lawful : ∀ {capacity : Nat} {t : Tally}, ring.bare.Lawful capacity t →
    last.bare.Lawful capacity (t.afterAll journal)

theorem Journal.lawful_append {capacity : Nat} {t : Tally} {a b : Journal}
    (ha : Journal.Lawful capacity t a) (hb : Journal.Lawful capacity (t.afterAll a) b) :
    Journal.Lawful capacity t (a ++ b) := by
  induction a generalizing t with
  | nil => exact hb
  | cons entry a ih => exact ⟨ha.1, ih ha.2 hb⟩

theorem Ring.lawful_bare {ring : Ring} {capacity : Nat} {t : Tally} (hc : ring.capacity = capacity)
    (hs : ring.size + t.consumed = t.appended) (hp : ring.position = t.consumed % capacity) :
    ring.bare.Lawful capacity t where
  length_eq := hc
  size_eq := hs
  size_le := hc ▸ ring.size_le_capacity
  position_eq := hp
  position_lt := hc ▸ ring.position_lt_capacity
  tail_eq := by
    show (ring.position + ring.size) % capacity = _
    rw [hp, Nat.mod_add_mod, Nat.add_comm, hs]

namespace Journal.Keeps

theorem nil (ring : Ring) : Journal.Keeps [] ring ring := ⟨fun _ => trivial, id⟩

theorem append {ring middle last : Ring} {a b : Journal} (h₁ : Journal.Keeps a ring middle)
    (h₂ : Journal.Keeps b middle last) : Journal.Keeps (a ++ b) ring last where
  journal_lawful h := lawful_append (h₁.journal_lawful h) (h₂.journal_lawful (h₁.last_lawful h))
  last_lawful h := by
    rw [Tally.afterAll, List.foldl_append]
    exact h₂.last_lawful (h₁.last_lawful h)

theorem single {ring next : Ring} {deed : Deed}
    (h : ∀ {capacity : Nat} {t : Tally}, ring.bare.Lawful capacity t →
      next.bare.Lawful capacity (t.after deed)) : Journal.Keeps [(deed, next.bare)] ring next :=
  ⟨fun hlawful => ⟨h hlawful, trivial⟩, h⟩

end Journal.Keeps

/-! ## What keeps the law -/

/-- A call moves the head by what it took over and the tail by what it delivered. -/
theorem Balanced.lawful {ring next : Ring} {call : Call} (h : Balanced ring [call] next)
    {capacity : Nat} {t : Tally} (hlawful : ring.bare.Lawful capacity t) :
    next.bare.Lawful capacity (t.after (.called call)) := by
  have hcapacity : ring.capacity = capacity := hlawful.length_eq
  have hsize : ring.size + t.consumed = t.appended := hlawful.size_eq
  have hposition : ring.position = t.consumed % capacity := hlawful.position_eq
  have hlength := congrArg List.length h.conserves
  simp only [acknowledged_cons, acknowledged_nil, delivered_cons, delivered_nil, List.append_nil,
    List.length_append, Ring.length_contents] at hlength
  apply Ring.lawful_bare (h.capacity.trans hcapacity)
  · show next.size + (t.consumed + call.acknowledged.length) =
      t.appended + call.delivered.length
    omega
  · show next.position = (t.consumed + call.acknowledged.length) % capacity
    rw [h.position, hposition, hcapacity, Nat.mod_add_mod, acknowledged_cons, acknowledged_nil,
      List.append_nil]

theorem Traces.keeps {ring last : Ring} {trace : List (Call × Bare)} (h : Traces ring trace last) :
    Journal.Keeps (trace.map fun entry => (.called entry.1, entry.2)) ring last := by
  induction h with
  | nil ring => exact .nil ring
  | cons first _ ih => exact (Journal.Keeps.single first.lawful).append ih

theorem Ring.lawful_write {ring later : Ring} {bytes : List UInt8}
    (h : ring.write bytes = .ok later) {capacity : Nat} {t : Tally} (hlawful : ring.bare.Lawful capacity t) :
    later.bare.Lawful capacity (t.after (.wrote bytes.length)) := by
  have hcapacity : ring.capacity = capacity := hlawful.length_eq
  have hsize : ring.size + t.consumed = t.appended := hlawful.size_eq
  have hposition : ring.position = t.consumed % capacity := hlawful.position_eq
  obtain ⟨hcells, hkept⟩ := cursors_of_write h
  have hlength := congrArg List.length (contents_of_write h)
  simp only [List.length_append, length_contents] at hlength
  apply lawful_bare (hcells.trans hcapacity)
  · show later.size + t.consumed = t.appended + bytes.length
    omega
  · rw [hkept, hposition]
    rfl

theorem Ring.lawful_consume {ring : Ring} {n : Nat} (h : n ≤ ring.size) {capacity : Nat}
    {t : Tally} (hlawful : ring.bare.Lawful capacity t) :
    (ring.consume n h).bare.Lawful capacity (t.after (.took n)) := by
  have hcapacity : ring.capacity = capacity := hlawful.length_eq
  have hsize : ring.size + t.consumed = t.appended := hlawful.size_eq
  have hposition : ring.position = t.consumed % capacity := hlawful.position_eq
  refine @lawful_bare (ring.consume n h) _ _ hcapacity ?_ ?_
  · show ring.size - n + (t.consumed + n) = t.appended
    omega
  · show (ring.position + n) % ring.capacity = (t.consumed + n) % capacity
    rw [hposition, hcapacity, Nat.mod_add_mod]

theorem Ring.lawful_empty {ring : Ring} {capacity : Nat} {t : Tally}
    (hlawful : ring.bare.Lawful capacity t) :
    ring.empty.bare.Lawful capacity (t.after .emptied) := by
  refine @lawful_bare ring.empty _ _ hlawful.length_eq ?_ ?_
  · rfl
  · exact (Nat.zero_mod capacity).symm

/-! ## The program does what the ring does -/

namespace Bare

variable {build : Build}

/-- A program comes to the end of an action or operation on the bare form of `ring`, shows `shown`,
    leaves the ring as `last`, has a journal of just these deeds, and keeps the law on its way. -/
def Reaches {α : Type} (program : Guarded (Done α)) (ring : Ring) (shown : α) (last : Ring)
    (deeds : List Deed) : Prop :=
  ∃ journal, program = pure ⟨shown, last.bare, journal⟩ ∧ journal.map Prod.fst = deeds ∧
    Journal.Keeps journal ring last

theorem Transfer.Mirrors.reaches {ε : Type} {program : Guarded (Transfer ε)} {ring : Ring}
    {t : RingRelay.Transfer ε} (h : Mirrors program [] ring t) :
    Reaches (program >>= fun rest => pure rest.done) ring t.outcome t.ring
      (t.calls.map .called) := by
  obtain ⟨trace, rfl, hcalls, htraces⟩ := h
  refine ⟨trace.map fun entry => (.called entry.1, entry.2), ?_, ?_, htraces.keeps⟩
  · rw [pure_bind, List.nil_append, Transfer.done, hcalls]
    rfl
  · rw [← hcalls, List.map_map, List.map_map]
    rfl

theorem perform_reaches (build : Build) (ring : Ring) (op : Operation) :
    Reaches (perform build ring.bare op) ring (ring.perform op).1 (ring.perform op).2
      (op.deeds (ring.perform op).1) := by
  cases op with
  | write bytes =>
    simp only [perform, Ring.perform]
    rw [write_eq, pure_bind]
    cases h : ring.write bytes with
    | ok later => exact ⟨_, rfl, rfl, .single (Ring.lawful_write h)⟩
    | error error => exact ⟨[], rfl, rfl, .nil ring⟩
  | read len =>
    simp only [perform, Ring.perform]
    rw [read_eq, pure_bind, List.length_replicate]
    unfold Ring.read
    by_cases h : len ≤ ring.size
    · rw [dif_pos h]
      exact ⟨_, rfl, rfl, .single (Ring.lawful_consume h)⟩
    · rw [dif_neg h]
      exact ⟨[], rfl, rfl, .nil ring⟩
  | peek len =>
    simp only [perform, Ring.perform]
    rw [peek_eq, pure_bind, List.length_replicate]
    cases ring.peek len with
    | ok bytes => exact ⟨[], rfl, rfl, .nil ring⟩
    | error error => exact ⟨[], rfl, rfl, .nil ring⟩
  | empty => exact ⟨_, rfl, rfl, .single Ring.lawful_empty⟩
  | fill rd source =>
    have h := mirrors_fill build rd.waiting ring source
    rw [Ring.fillWaiting, Ring.fillWaitingFrom_waiting] at h
    exact h.reaches
  | fillWaiting rd source => exact (mirrors_fill build rd ring source).reaches
  | drain wr sink =>
    have h := mirrors_drain build wr.waiting ring sink
    rw [Ring.drainWaiting, Ring.drainWaitingFrom_waiting] at h
    exact h.reaches
  | drainWaiting wr sink => exact (mirrors_drain build wr ring sink).reaches

/-- What a program's relay shows of the relay of the ring. -/
theorem State.Shows.reaches {ρ ω : Type} {ring : Ring} {b : State ρ ω} {s : Relay.State ρ ω}
    (h : b.Shows ring s) (result : Option (Except RelayError Unit)) :
    Reaches (pure (b.done result)) ring (.relay s.calls.toList result) s.ring
      (s.calls.toList.map .called) := by
  refine ⟨b.trace.map fun entry => (.called entry.1, entry.2), ?_, ?_, h.traces.keeps⟩
  · rw [State.done, h.calls, h.ring]
  · rw [← h.calls, List.map_map, List.map_map]
    rfl

theorem act_reaches (build : Build) (ring : Ring) (action : Action) :
    Reaches (act build ring.bare action) ring (ring.act action).1 (ring.act action).2
      (action.deeds (ring.act action).1) := by
  cases action with
  | operation op =>
    obtain ⟨journal, hprogram, hdeeds, hkeeps⟩ := perform_reaches build ring op
    refine ⟨journal, ?_, hdeeds, hkeeps⟩
    simp only [act]
    rw [hprogram, pure_bind]
    rfl
  | relay rd wr options source sink n =>
    obtain ⟨p, hp, hshows⟩ := rounds_shows build rd wr options ring source sink n
    simp only [act, Ring.act]
    rw [hp, pure_bind]
    cases hmodel : Relay.rounds rd wr options ring source sink n with
    | running s =>
      rw [hmodel] at hshows
      cases p with
      | ended b result => exact hshows.elim
      | running b => exact hshows.reaches none
    | ended s result =>
      rw [hmodel] at hshows
      cases p with
      | running b => exact hshows.elim
      | ended b result' =>
        obtain ⟨hstate, rfl⟩ := hshows
        exact hstate.reaches _

theorem actAll_reaches (build : Build) (ring : Ring) (actions : List Action) :
    Reaches (actAll build ring.bare actions) ring (ring.actAll actions).1 (ring.actAll actions).2
      (List.zipWith Action.deeds actions (ring.actAll actions).1).flatten := by
  induction actions generalizing ring with
  | nil => exact ⟨[], rfl, rfl, .nil ring⟩
  | cons action actions ih =>
    obtain ⟨journal, hprogram, hdeeds, hkeeps⟩ := act_reaches build ring action
    obtain ⟨more, hmore, hdeeds', hkeeps'⟩ := ih (ring.act action).2
    refine ⟨journal ++ more, ?_, ?_, hkeeps.append hkeeps'⟩
    · unfold actAll
      rw [hprogram, pure_bind, hmore, pure_bind]
      rfl
    · rw [List.map_append, hdeeds, hdeeds']
      rfl

end Bare

/-- A program that begins with a new ring comes to the end of any use of it, in a checked build as
    in a plain one: no sum overflows, no slice leaves its array, no copy is between slices of unlike
    lengths and no assertion fails, whatever the endpoints report. It shows what the ring shows, its
    journal is of all that was done, and the ring is lawful at the beginning, behind each of these
    deeds and so at the end. -/
theorem lawful_of_create {memory capacity : Nat} {ring : Ring}
    (h : Ring.create memory capacity = .ok ring) (build : Build) (actions : List Action) :
    ∃ journal : Journal,
      (Bare.actAll build ring.bare actions).run =
          .some (.ok ⟨(ring.actAll actions).1, (ring.actAll actions).2.bare, journal⟩) ∧
        journal.map Prod.fst = (List.zipWith Action.deeds actions (ring.actAll actions).1).flatten ∧
        ring.bare.Lawful capacity ⟨0, 0⟩ ∧ Journal.Lawful capacity ⟨0, 0⟩ journal ∧
        (ring.actAll actions).2.bare.Lawful capacity (Tally.afterAll ⟨0, 0⟩ journal) := by
  obtain ⟨hcapacity, hposition, hsize⟩ := Ring.of_create h
  obtain ⟨journal, hprogram, hdeeds, hkeeps⟩ := Bare.actAll_reaches build ring actions
  have hfirst : ring.bare.Lawful capacity ⟨0, 0⟩ := by
    apply Ring.lawful_bare hcapacity
    · exact hsize
    · rw [hposition, Nat.zero_mod]
  refine ⟨journal, ?_, hdeeds, hfirst, hkeeps.journal_lawful hfirst, hkeeps.last_lawful hfirst⟩
  rw [hprogram]
  rfl

/-- A use of three cells with endpoints that report more than they were given, on the first call and
    on the second, wrapped one, and with a relay that fails and is begun again. -/
def liarsUse : List Action :=
  [.operation (.write [1, 2]), .operation (.read 2),
    .operation (.fill ReadScript.reader [.data [3], .report 9]),
    .operation (.drain WriteScript.writer ⟨[.report 7], none, []⟩),
    .relay ReadScript.waitingReader WriteScript.waitingWriter {} [.data [4, 5, 6]]
      ⟨[.accept 1, .report 9], none, []⟩ 2,
    .relay ReadScript.waitingReader WriteScript.waitingWriter {} [.notReady, .eof]
      ⟨[], none, []⟩ 1,
    .operation .empty]

theorem lawful_of_create_liars :
    ∃ ring journal, Ring.create 8 3 = .ok ring ∧
      (Bare.actAll .checked ring.bare liarsUse).run =
        .some (.ok ⟨(ring.actAll liarsUse).1, (ring.actAll liarsUse).2.bare, journal⟩) ∧
      Journal.Lawful 3 ⟨0, 0⟩ journal := by
  obtain ⟨journal, hprogram, _, _, hlawful, _⟩ := @lawful_of_create 8 3 _ rfl .checked liarsUse
  exact ⟨_, journal, rfl, hprogram, hlawful⟩

end RingRelay
