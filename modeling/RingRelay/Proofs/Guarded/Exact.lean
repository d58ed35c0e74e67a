import RingRelay.Proofs.Guarded.Passes
import RingRelay.Proofs.Guarded.Session
/- The arithmetic of a running program is exact.

   A plain build has no check on its sums and differences: one that is not a word wraps, and the
   program goes on with a wrong number. A checked build breaks down there, so where it comes to its
   end each sum and difference on its way was exact, and a plain build has come to the same.

   `Ring.Fits` lists the sums and differences that the operations of a ring compute, and says of each
   that it is a word; the bounds on the cursors and the size of the largest block are all it takes.
   `Ring.Computes` says what each function gives, in the integers. The count of a transfer is kept
   within the ring by its loop (`Underway.Filling`, `Underway.Draining`), pass after pass, also with
   an endpoint that is never ready.

   `Bare.Reached` has every ring that a program comes to from a new one, those among them that a
   transfer leaves which is given up between two polls. Each is the bare form of a ring, so the
   arithmetic on it is exact (`exact_of_create`). -/
namespace RingRelay

/-! ## Sums and differences -/

/-- Each sum that is computed for this ring is below the number of words, and nothing is taken from
    less than it. -/
structure Ring.Fits (ring : Ring) : Prop where
  capacity_le : ring.capacity ≤ maxBlock
  /-- What `remaining` takes from the capacity. -/
  size_le : ring.size ≤ ring.capacity
  /-- The sum in `tail` and in `writableRun`. -/
  stop_lt : ring.position + ring.size < wordCount
  /-- What `readableRun` takes from the capacity. -/
  position_le : ring.position ≤ ring.capacity
  /-- What `writableRun` takes from the position, when it does not take from the capacity. -/
  past_le : ring.capacity ≤ ring.position + ring.size →
    ring.position + ring.size - ring.capacity ≤ ring.position
  /-- The bound of the slice that a writer is offered. -/
  readable_lt : ring.position + ring.readableRun < wordCount
  /-- The bound of the slice that a reader is given. -/
  writable_lt : ring.tail + ring.writableRun < wordCount
  /-- The runs that are copied start in one of the cells. -/
  starts_lt : ring.position < ring.capacity ∧ ring.tail < ring.capacity
  /-- The bound of the first piece of such a run. -/
  segments_lt : ∀ {start len : Nat}, start < ring.capacity →
    start + min len (ring.capacity - start) < wordCount
  /-- What is committed fits, and its sum with the size is a word. -/
  commit_lt : ring.writableRun ≤ ring.remaining ∧
    ∀ {n : Nat}, n ≤ ring.remaining → ring.size + n < wordCount
  /-- What is consumed is there, and its sum with the position is a word. -/
  consume_lt : ring.readableRun ≤ ring.size ∧
    ∀ {n : Nat}, n ≤ ring.size → ring.position + n < wordCount

theorem Ring.writableRun_le_capacity (ring : Ring) : ring.writableRun ≤ ring.capacity :=
  calc ring.writableRun ≤ ring.remaining := ring.writableRun_le_remaining
    _ ≤ ring.capacity := Nat.sub_le _ _

theorem Ring.readableRun_le_capacity (ring : Ring) : ring.readableRun ≤ ring.capacity :=
  calc ring.readableRun ≤ ring.size := ring.readableRun_le_size
    _ ≤ ring.capacity := ring.size_le_capacity

theorem Ring.fits (ring : Ring) : ring.Fits where
  capacity_le := ring.cells_le
  size_le := ring.size_le_capacity
  stop_lt := Bare.add_lt_wordCount ring (Nat.le_of_lt ring.position_lt_capacity)
    ring.size_le_capacity
  position_le := Nat.le_of_lt ring.position_lt_capacity
  past_le _ := by
    have := ring.size_le_capacity
    omega
  readable_lt := Bare.add_lt_wordCount ring (Nat.le_of_lt ring.position_lt_capacity)
    ring.readableRun_le_capacity
  writable_lt := Bare.add_lt_wordCount ring (Nat.le_of_lt ring.tail_lt)
    ring.writableRun_le_capacity
  starts_lt := ⟨ring.position_lt_capacity, ring.tail_lt⟩
  segments_lt hstart := Bare.add_lt_wordCount ring (Nat.le_of_lt hstart)
    (Nat.le_trans (Nat.min_le_right _ _) (Nat.sub_le _ _))
  commit_lt := ⟨ring.writableRun_le_remaining, fun h =>
    Bare.add_lt_wordCount ring ring.size_le_capacity (Nat.le_trans h (Nat.sub_le _ _))⟩
  consume_lt := ⟨ring.readableRun_le_size, fun h =>
    Bare.add_lt_wordCount ring (Nat.le_of_lt ring.position_lt_capacity)
      (Nat.le_trans h ring.size_le_capacity)⟩

/-! ## What the functions compute -/

/-- The program does not break down, and gives a number that is this integer. -/
def Gives (program : Guarded Nat) (z : ℤ) : Prop := ∃ n : Nat, program = pure n ∧ (n : ℤ) = z

/-- What a build computes for this ring is what exact arithmetic gives. -/
structure Ring.Computes (ring : Ring) (build : Build) : Prop where
  remaining : Gives (Bare.remaining build ring.bare) (ring.capacity - ring.size)
  tail : Gives (Bare.tail build ring.bare) ((ring.position + ring.size) % ring.capacity)
  readableRun : Gives (Bare.readableRun build ring.bare)
    (min ring.size (ring.capacity - ring.position))
  writableRun : Gives (Bare.writableRun build ring.bare)
    (if (ring.position + ring.size : ℤ) < ring.capacity then
      ring.capacity - (ring.position + ring.size)
    else ring.position - (ring.position + ring.size - ring.capacity))
  readable : Bare.readable build ring.bare =
    pure (Cells.slice ring.cells ring.position (ring.position + ring.readableRun))
  writable : Bare.writable build ring.bare = pure ⟨ring.tail, ring.tail + ring.writableRun⟩
  segments : ∀ {start len : Nat}, start < ring.capacity → len ≤ ring.capacity → ∃ region,
    Bare.segments build start len ring.capacity = pure region ∧
      region.first.start = start ∧ region.second.start = 0 ∧
      (region.first.stop : ℤ) = start + min (len : ℤ) (ring.capacity - start) ∧
      (region.second.stop : ℤ) = len - min (len : ℤ) (ring.capacity - start)
  commit : ∀ {n : Nat}, n ≤ ring.remaining → ∃ later, Bare.commit build ring.bare n = pure later ∧
    later.cells = ring.cells ∧ later.position = ring.position ∧ (later.size : ℤ) = ring.size + n
  consume : ∀ {n : Nat}, n ≤ ring.size → ∃ later, Bare.consume build ring.bare n = pure later ∧
    later.cells = ring.cells ∧ (later.position : ℤ) = (ring.position + n) % ring.capacity ∧
      (later.size : ℤ) = ring.size - n

theorem Ring.computes (ring : Ring) (build : Build) : ring.Computes build where
  remaining := ⟨ring.remaining, Bare.remaining_eq ring, Int.ofNat_sub ring.size_le_capacity⟩
  tail := ⟨ring.tail, Bare.tail_eq ring, by simp only [tail, Int.natCast_add, Int.natCast_emod]⟩
  readableRun := by
    refine ⟨ring.readableRun, Bare.readableRun_eq ring, ?_⟩
    have := ring.position_lt_capacity
    unfold readableRun
    omega
  writableRun := by
    refine ⟨ring.writableRun, Bare.writableRun_eq ring, ?_⟩
    have := ring.position_lt_capacity
    have := ring.size_le_capacity
    unfold writableRun
    split <;> split <;> omega
  readable := Bare.readable_eq ring
  writable := Bare.writable_eq ring
  segments {start len} hstart hlen := by
    refine ⟨Region.of start len ring.capacity, Bare.segments_eq ring hstart hlen, rfl, rfl, ?_, ?_⟩
    · simp only [Region.of]
      omega
    · simp only [Region.of]
      omega
  commit h := ⟨_, Bare.commit_eq ring h, rfl, rfl, Int.natCast_add _ _⟩
  consume {n} h := by
    refine ⟨_, Bare.consume_eq ring h, rfl, ?_, Int.ofNat_sub h⟩
    show (((ring.position + n) % ring.capacity : Nat) : ℤ) = _
    simp only [Int.natCast_add, Int.natCast_emod]

/-! ## Transfers, with any endpoint -/

section Exact

variable {ε : Type}

/-- A pass of a fill of `ring` by exact arithmetic. -/
def Ring.fillPass (rd : RawReader ε) (ring : Ring) (u : Bare.Underway ε) :
    Bare.Transfer ε ⊕ Bare.Underway ε :=
  if 0 < ring.writableRun then
    match rd.poll u.endpoint ring.writableRun with
    | (.pending, later) => .inr { u with endpoint := later }
    | (.ready answer, later) =>
      let a := ring.absorbRead answer u.total
      Bare.Underway.next
        ⟨a.ring.bare, later, u.total + a.moved, u.trace ++ [(a.call, a.ring.bare)]⟩ a.step
  else .inl (u.finish (.ok u.total))

/-- A pass of a drain of `ring` by exact arithmetic. -/
def Ring.drainPass (wr : RawWriter ε) (ring : Ring) (u : Bare.Underway ε) :
    Bare.Transfer ε ⊕ Bare.Underway ε :=
  if 0 < ring.readableRun then
    match wr.poll u.endpoint ring.readable with
    | (.pending, later) => .inr { u with endpoint := later }
    | (.ready answer, later) =>
      let a := ring.absorbWrite answer u.total
      Bare.Underway.next
        ⟨a.ring.bare, later, u.total + a.moved, u.trace ++ [(a.call, a.ring.bare)]⟩ a.step
  else .inl (u.finish (.ok u.total))

end Exact

namespace Bare

variable {ε : Type} {build : Build}

/-- All that a fill has counted is in the ring. -/
def Underway.Filling (ring : Ring) (u : Underway ε) : Prop :=
  u.ring = ring.bare ∧ u.total ≤ ring.size

/-- All that a drain has counted was in the ring. -/
def Underway.Draining (ring : Ring) (u : Underway ε) : Prop :=
  u.ring = ring.bare ∧ u.total + ring.size ≤ ring.capacity

/-- A pass that is what exact arithmetic has it, and behind which there is a ring again and a count
    that is known as it was before. -/
structure ExactPass (known : Ring → Underway ε → Prop)
    (pass : Guarded (Transfer ε ⊕ Underway ε)) (exact : Transfer ε ⊕ Underway ε) : Prop where
  pass_eq : pass = pure exact
  known_next : ∀ {next}, exact = .inr next → ∃ later, known later next
  ring_last : ∀ {t}, exact = .inl t → ∃ last : Ring, t.ring = last.bare

namespace ExactPass

variable {known : Ring → Underway ε → Prop} {pass : Guarded (Transfer ε ⊕ Underway ε)}
  {ring : Ring} {u : Underway ε}

/-- A pass that polls an endpoint which is not ready. -/
theorem of_pending (h : pass = pure (.inr u)) (hknown : known ring u) :
    ExactPass known pass (.inr u) where
  pass_eq := h
  known_next := by
    rintro _ ⟨rfl⟩
    exact ⟨ring, hknown⟩
  ring_last := nofun

/-- A pass that takes in an answer. -/
theorem of_next {step : Step} (h : pass = pure (u.next step)) (hring : u.ring = ring.bare)
    (hknown : step = .more → known ring u) : ExactPass known pass (u.next step) := by
  refine ⟨h, ?_, ?_⟩
  · intro next hnext
    cases step with
    | more =>
      cases hnext
      exact ⟨ring, hknown rfl⟩
    | done => cases hnext
    | failed error => cases hnext
  · intro t ht
    cases step with
    | more => cases ht
    | done =>
      cases ht
      exact ⟨ring, hring⟩
    | failed error =>
      cases ht
      exact ⟨ring, hring⟩

/-- The pass that finds nothing more to do. -/
theorem of_idle (h : pass = pure (u.next .done)) (hring : u.ring = ring.bare) :
    ExactPass known pass (u.next .done) :=
  of_next h hring nofun

end ExactPass

theorem exactPass_fill (build : Build) (rd : RawReader ε) {ring : Ring} {u : Underway ε}
    (h : u.Filling ring) :
    ExactPass Underway.Filling (fillPass build rd u) (ring.fillPass rd u) := by
  obtain ⟨r, source, total, trace⟩ := u
  obtain ⟨rfl, htotal⟩ : r = ring.bare ∧ total ≤ ring.size := h
  unfold Ring.fillPass
  by_cases hrun : 0 < ring.writableRun
  · rw [if_pos hrun]
    rcases hp : rd.poll source ring.writableRun with ⟨_ | answer, later⟩
    · exact .of_pending (fillPass_of_pending hrun hp) ⟨rfl, htotal⟩
    · refine .of_next (fillPass_of_ready hrun hp htotal rfl) rfl
        fun (hmore : (ring.absorbRead answer total).step = .more) => ⟨rfl, ?_⟩
      -- What the answer brought in has been committed and counted.
      have hgrown := (Ring.absorbRead_of_more hmore).2
      have hmoved := (Ring.moved_absorbRead_of_more hmore).1
      show total + (ring.absorbRead answer total).moved ≤ (ring.absorbRead answer total).ring.size
      omega
  · rw [if_neg hrun]
    exact .of_idle (fillPass_of_full hrun) rfl

theorem exactPass_drain (build : Build) (wr : RawWriter ε) {ring : Ring} {u : Underway ε}
    (h : u.Draining ring) :
    ExactPass Underway.Draining (drainPass build wr u) (ring.drainPass wr u) := by
  obtain ⟨r, sink, total, trace⟩ := u
  obtain ⟨rfl, htotal⟩ : r = ring.bare ∧ total + ring.size ≤ ring.capacity := h
  unfold Ring.drainPass
  by_cases hrun : 0 < ring.readableRun
  · rw [if_pos hrun]
    rcases hp : wr.poll sink ring.readable with ⟨_ | answer, later⟩
    · exact .of_pending (drainPass_of_pending hrun hp) ⟨rfl, htotal⟩
    · refine .of_next (drainPass_of_ready hrun hp htotal rfl) rfl fun _ => ⟨rfl, ?_⟩
      -- What the writer took has been consumed and counted.
      have hsize := Ring.size_absorbWrite ring answer total
      have hmoved := Ring.moved_absorbWrite_le ring answer total
      show total + (ring.absorbWrite answer total).moved + (ring.absorbWrite answer total).ring.size
        ≤ (ring.absorbWrite answer total).ring.capacity
      rw [(Ring.moves_absorbWrite ring answer total).capacity]
      omega
  · rw [if_neg hrun]
    exact .of_idle (drainPass_of_drained hrun) rfl

/-- A stream loop that begins at `start`, as `Bare.fill` and `Bare.drain` do. At each state between two
    of its passes there is a ring, the pass is that of exact arithmetic, and the count can be raised
    by what an endpoint may report, `limit` at the most. The loop does not break down, and it is the
    same in both builds, whether or not it ends. -/
structure ExactLoop (limit : Ring → Nat) (exact : Ring → Underway ε → Transfer ε ⊕ Underway ε)
    (pass : Build → Underway ε → Guarded (Transfer ε ⊕ Underway ε)) (start : Underway ε) : Prop where
  visited : ∀ {build u}, Guarded.Visits (pass build) start u → ∃ ring : Ring,
    u.ring = ring.bare ∧ pass build u = pure (exact ring u) ∧
      ∀ {n}, n ≤ limit ring → u.total + n < wordCount
  unbroken : ∀ build fault, Guarded.loop (pass build) start ≠ throw fault
  same : Guarded.loop (pass .checked) start = Guarded.loop (pass .plain) start

section Loop

variable {known : Ring → Underway ε → Prop} {limit : Ring → Nat}
  {exact : Ring → Underway ε → Transfer ε ⊕ Underway ε}
  {pass : Build → Underway ε → Guarded (Transfer ε ⊕ Underway ε)} {start : Underway ε}
  {ring : Ring}
  (hpass : ∀ build {ring u}, known ring u → ExactPass known (pass build u) (exact ring u))
  (hstart : known ring start)

include hpass hstart

/-- What is known of the count at the start is known at each state that the loop visits. -/
theorem known_of_visits {u : Underway ε} (h : Guarded.Visits (pass build) start u) :
    ∃ now, known now u := by
  refine h.invariant (p := fun u => ∃ now, known now u) ⟨ring, hstart⟩ ?_
  rintro s next ⟨now, hnow⟩ hnext
  have hexact := hpass build hnow
  exact hexact.known_next (Guarded.pure_inj (hexact.pass_eq.symm.trans hnext))

/-- Behind a transfer that has ended there is a ring. -/
theorem ring_of_loop {t : Transfer ε} (h : Guarded.loop (pass build) start = pure t) :
    ∃ last : Ring, t.ring = last.bare := by
  have hmem : .ok t ∈ (Guarded.loop (pass build) start).run := by
    rw [h]
    exact Part.mem_some _
  obtain ⟨u, hvisits, hend⟩ := Guarded.loop_run_iff.mp hmem
  obtain ⟨now, hnow⟩ := known_of_visits hpass hstart hvisits
  have hexact := hpass build hnow
  exact hexact.ring_last (Guarded.pure_inj (hexact.pass_eq.symm.trans hend))

theorem exactLoop (hring : ∀ {ring u}, known ring u → u.ring = ring.bare)
    (hlimit : ∀ {ring u}, known ring u → ∀ {n}, n ≤ limit ring → u.total + n < wordCount) :
    ExactLoop limit exact pass start where
  visited hvisits := by
    obtain ⟨now, hnow⟩ := known_of_visits hpass hstart hvisits
    exact ⟨now, hring hnow, (hpass _ hnow).pass_eq, hlimit hnow⟩
  unbroken build := by
    refine Guarded.loop_ne_throw fun u hvisits => ?_
    obtain ⟨now, hnow⟩ := known_of_visits hpass hstart hvisits
    exact ⟨_, (hpass build hnow).pass_eq⟩
  same := by
    refine Guarded.loop_congr fun u hvisits => ?_
    obtain ⟨now, hnow⟩ := known_of_visits hpass hstart hvisits
    exact (hpass .checked hnow).pass_eq.trans (hpass .plain hnow).pass_eq.symm

end Loop

/-- The count of a fill stays a word, whatever is read next. -/
theorem Underway.Filling.add_lt {ring : Ring} {u : Underway ε} (h : u.Filling ring) {n : Nat}
    (hn : n ≤ ring.writableRun) : u.total + n < wordCount := by
  have hsize := ring.size_le_capacity
  have hroom := ring.writableRun_le_capacity
  apply add_lt_wordCount ring
  · exact Nat.le_trans h.2 hsize
  · exact Nat.le_trans hn hroom

/-- The count of a drain stays a word, whatever is written next. -/
theorem Underway.Draining.add_lt {ring : Ring} {u : Underway ε} (h : u.Draining ring) {n : Nat}
    (hn : n ≤ ring.readableRun) : u.total + n < wordCount := by
  have hoffer := ring.readableRun_le_capacity
  apply add_lt_wordCount ring
  · exact Nat.le_trans (Nat.le_add_right _ _) h.2
  · exact Nat.le_trans hn hoffer

theorem filling_start (ring : Ring) (source : ε) :
    Underway.Filling ring ⟨ring.bare, source, 0, []⟩ :=
  ⟨rfl, Nat.zero_le _⟩

theorem draining_start (ring : Ring) (sink : ε) :
    Underway.Draining ring ⟨ring.bare, sink, 0, []⟩ := by
  refine ⟨rfl, ?_⟩
  rw [Nat.zero_add]
  exact ring.size_le_capacity

theorem exactLoop_fill (rd : RawReader ε) (ring : Ring) (source : ε) :
    ExactLoop Ring.writableRun (Ring.fillPass rd) (fillPass · rd) ⟨ring.bare, source, 0, []⟩ :=
  exactLoop (exactPass_fill · rd) (filling_start ring source) And.left Underway.Filling.add_lt

theorem exactLoop_drain (wr : RawWriter ε) (ring : Ring) (sink : ε) :
    ExactLoop Ring.readableRun (Ring.drainPass wr) (drainPass · wr) ⟨ring.bare, sink, 0, []⟩ :=
  exactLoop (exactPass_drain · wr) (draining_start ring sink) And.left Underway.Draining.add_lt

/-! ## The rings that a program comes to -/

/-- The rings that a program of this build comes to. It does actions, and it makes transfers with any
    endpoints, which come to an end or are given up between two polls. -/
inductive Reached (build : Build) (first : Bare) : Bare → Prop
  | first : Reached build first first
  | acted {r : Bare} (before : Reached build first r) (action : Action) {done : Done Shown}
      (h : act build r action = pure done) : Reached build first done.ring
  | filling {r : Bare} (before : Reached build first r) {ρ : Type} (rd : RawReader ρ) (source : ρ)
      {u : Underway ρ} (h : Guarded.Visits (fillPass build rd) ⟨r, source, 0, []⟩ u) :
      Reached build first u.ring
  | filled {r : Bare} (before : Reached build first r) {ρ : Type} (rd : RawReader ρ) (source : ρ)
      {t : Transfer ρ} (h : fill build rd r source = pure t) : Reached build first t.ring
  | draining {r : Bare} (before : Reached build first r) {ω : Type} (wr : RawWriter ω) (sink : ω)
      {u : Underway ω} (h : Guarded.Visits (drainPass build wr) ⟨r, sink, 0, []⟩ u) :
      Reached build first u.ring
  | drained {r : Bare} (before : Reached build first r) {ω : Type} (wr : RawWriter ω) (sink : ω)
      {t : Transfer ω} (h : drain build wr r sink = pure t) : Reached build first t.ring

/-- Each ring that a program comes to from the bare form of a ring is the bare form of a ring. -/
theorem Reached.exists_ring {first : Ring} {r : Bare} (h : Reached build first.bare r) :
    ∃ ring : Ring, r = ring.bare := by
  induction h with
  | first => exact ⟨first, rfl⟩
  | acted _ action hdone ih =>
    obtain ⟨ring, rfl⟩ := ih
    obtain ⟨journal, hprogram, _⟩ := act_reaches build ring action
    rw [← Guarded.pure_inj (hprogram.symm.trans hdone)]
    exact ⟨_, rfl⟩
  | filling _ rd source hvisits ih =>
    obtain ⟨ring, rfl⟩ := ih
    obtain ⟨now, hring, _⟩ := (exactLoop_fill rd ring source).visited hvisits
    exact ⟨now, hring⟩
  | filled _ rd source hfill ih =>
    obtain ⟨ring, rfl⟩ := ih
    exact ring_of_loop (exactPass_fill · rd) (filling_start ring source) hfill
  | draining _ wr sink hvisits ih =>
    obtain ⟨ring, rfl⟩ := ih
    obtain ⟨now, hring, _⟩ := (exactLoop_drain wr ring sink).visited hvisits
    exact ⟨now, hring⟩
  | drained _ wr sink hdrain ih =>
    obtain ⟨ring, rfl⟩ := ih
    exact ring_of_loop (exactPass_drain · wr) (draining_start ring sink) hdrain

/-- The ring behind any use of a ring by actions is one that a program comes to. -/
theorem Reached.actAll {first : Bare} {ring : Ring} (h : Reached build first ring.bare)
    (actions : List Action) : Reached build first (ring.actAll actions).2.bare := by
  induction actions generalizing ring with
  | nil => exact h
  | cons action actions ih =>
    obtain ⟨journal, hprogram, _⟩ := act_reaches build ring action
    exact ih (h.acted action hprogram)

end Bare

/-- All arithmetic that begins with this ring is exact. Its sums and differences fit, and the
    functions that compute them give what they are in the integers; each action comes to its end,
    and shows and leaves what it does by exact arithmetic; and so does each pass of the stream loops,
    whatever the endpoint, on a ring and with a count that are exact again. -/
structure Ring.ExactArithmetic (ring : Ring) : Prop where
  fits : ring.Fits
  computes : ∀ build, ring.Computes build
  act : ∀ build action, ∃ journal, Bare.act build ring.bare action =
    pure ⟨(ring.act action).1, (ring.act action).2.bare, journal⟩
  fill : ∀ {ρ : Type} (rd : RawReader ρ) (source : ρ), Bare.ExactLoop writableRun (fillPass rd)
    (Bare.fillPass · rd) ⟨ring.bare, source, 0, []⟩
  drain : ∀ {ω : Type} (wr : RawWriter ω) (sink : ω), Bare.ExactLoop readableRun (drainPass wr)
    (Bare.drainPass · wr) ⟨ring.bare, sink, 0, []⟩

theorem Ring.exactArithmetic (ring : Ring) : ring.ExactArithmetic where
  fits := ring.fits
  computes := ring.computes
  act build action := by
    obtain ⟨journal, hprogram, _⟩ := Bare.act_reaches build ring action
    exact ⟨journal, hprogram⟩
  fill rd source := Bare.exactLoop_fill rd ring source
  drain wr sink := Bare.exactLoop_drain wr ring sink

/-- A ring of more than `maxBlock` bytes cannot be had, and whatever a program does with a new ring,
    in a build with checks or in one without, it has no sum that reaches the number of words and no
    difference of a number and a larger one: each ring that it comes to is one whose arithmetic is
    exact, whichever build and endpoint it goes on with. -/
theorem exact_of_create (memory capacity : Nat) :
    (maxBlock < capacity →
        Ring.create memory capacity = .error (.allocation capacity .tooLarge)) ∧
      ∀ {first : Ring}, Ring.create memory capacity = .ok first →
        ∀ {build : Build} {r : Bare}, Bare.Reached build first.bare r →
          ∃ ring : Ring, r = ring.bare ∧ ring.ExactArithmetic := by
  constructor
  · intro hlarge
    have hpos : capacity ≠ 0 := Nat.ne_of_gt (Nat.lt_of_le_of_lt (Nat.zero_le _) hlarge)
    rw [Ring.create, dif_neg hpos, dif_pos hlarge]
  · intro first _ build r hreached
    obtain ⟨ring, hring⟩ := hreached.exists_ring
    exact ⟨ring, hring, ring.exactArithmetic⟩

/-- A use of three cells that ends with live bytes from the last cell over the end. -/
def wrappingUse : List Action :=
  [.operation (.write [1, 2]), .operation (.read 2), .operation (.write [3, 4, 5])]

/-- A ring of `2 ^ 63` bytes, and one of three behind a use that wraps, where the sum of the cursors
    is beyond the capacity. -/
theorem exact_of_create_wrapped :
    Ring.create 8 0x8000000000000000 = .error (.allocation 0x8000000000000000 .tooLarge) ∧
      ∃ first ring : Ring, Ring.create 8 3 = .ok first ∧
        Bare.Reached .plain first.bare ring.bare ∧ ring.bare.position = 2 ∧ ring.bare.size = 3 ∧
          ring.ExactArithmetic := by
  refine ⟨(exact_of_create 8 _).1 (by decide), ?_⟩
  obtain ⟨first, hfirst⟩ : ∃ first, Ring.create 8 3 = .ok first := ⟨_, rfl⟩
  have hreached : Bare.Reached .plain first.bare (first.actAll wrappingUse).2.bare :=
    .actAll .first wrappingUse
  obtain ⟨ring, hring, hexact⟩ := (exact_of_create 8 3).2 hfirst hreached
  cases hfirst
  exact ⟨_, ring, rfl, hring ▸ hreached, hring ▸ rfl, hring ▸ rfl, hexact⟩

end RingRelay
