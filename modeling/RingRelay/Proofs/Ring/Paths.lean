import Mathlib.Algebra.GroupWithZero.Nat
import RingRelay.Proofs.Endpoint.Pauses
import RingRelay.Proofs.Ring.TwoWrites
/- All ways in and all ways out come to the same ring.

   Bytes come in by one write, by a write for each of their chunks, or by fills from a reader that
   hands out the chunks, and the last of these goes through straight rows of cells that know nothing
   of the chunks. Each way puts the bytes behind the newest one (`Appends`), and that leaves one ring
   only for all of them. Bytes go out by one read, by some reads, or by drains to a writer that takes
   what it likes, and each way moves the cursors past what it took (`TakesOut`).

   A way of some transfers is the same transfer again and again (`again`). A fill from a reader with
   chunks left brings in one byte at least, so as many fills as there are bytes are enough, and so it
   is with drains. -/
namespace RingRelay

namespace Ring

/-! ## Several writes, several reads -/

/-- Writes some chunks one after another. -/
def writeAll (ring : Ring) : List (List UInt8) → Except RingError Ring
  | [] => .ok ring
  | chunk :: chunks => do
    let later ← ring.write chunk
    later.writeAll chunks

/-- Reads some lengths one after another, and puts together what comes out. -/
def readAll (ring : Ring) : List Nat → Except RingError (List UInt8 × Ring)
  | [] => .ok ([], ring)
  | len :: lens => do
    let (bytes, later) ← ring.read len
    let (more, last) ← later.readAll lens
    .ok (bytes ++ more, last)

theorem Appends.remaining_eq {ring later : Ring} {bytes : List UInt8}
    (h : ring.Appends bytes later) : later.remaining = ring.remaining - bytes.length := by
  have hle := h.size_le
  unfold remaining
  rw [h.capacity_eq, h.size_eq]
  omega

theorem Appends.contents_eq {ring later : Ring} {bytes : List UInt8}
    (h : ring.Appends bytes later) : later.contents = ring.contents ++ bytes := by
  have hroom : bytes.length ≤ ring.remaining := by
    have hle := h.size_le
    unfold remaining
    omega
  obtain ⟨written, hwrite, happends⟩ := appends_write hroom
  rw [h.unique happends, contents_of_write hwrite]

/-- Chunks that fit together fit one after another. -/
theorem appends_writeAll {ring : Ring} {chunks : List (List UInt8)}
    (h : chunks.flatten.length ≤ ring.remaining) :
    ∃ later, ring.writeAll chunks = .ok later ∧ ring.Appends chunks.flatten later := by
  induction chunks generalizing ring with
  | nil => exact ⟨ring, rfl, .refl ring⟩
  | cons chunk chunks ih =>
    rw [List.flatten_cons, List.length_append] at h
    have hchunk : chunk.length ≤ ring.remaining := by omega
    obtain ⟨middle, hwrite, hfirst⟩ := appends_write hchunk
    have hrest : chunks.flatten.length ≤ middle.remaining := by
      rw [hfirst.remaining_eq]
      omega
    obtain ⟨later, hwrites, hsecond⟩ := ih hrest
    refine ⟨later, ?_, hfirst.trans hsecond⟩
    rw [writeAll, hwrite]
    exact hwrites

theorem read_eq (ring : Ring) {len : Nat} (h : len ≤ ring.size) :
    ring.read len = .ok (ring.contents.take len, ring.consume len h) := by
  rw [read, dif_pos h, oldest_eq_take ring h]

theorem readAll_eq {ring : Ring} {lens : List Nat} (h : lens.sum ≤ ring.size) :
    ring.readAll lens = .ok (ring.contents.take lens.sum, ring.consume lens.sum h) := by
  induction lens generalizing ring with
  | nil =>
    show Except.ok ([], ring) = .ok ([], ring.consume 0 h)
    rw [consume_zero]
  | cons len lens ih =>
    have hsum : len + lens.sum ≤ ring.size := by rwa [List.sum_cons] at h
    have hlen : len ≤ ring.size := by omega
    have hlens : lens.sum ≤ (ring.consume len hlen).size := by
      show lens.sum ≤ ring.size - len
      omega
    rw [readAll, read_eq ring hlen]
    show (do
      let (more, last) ← (ring.consume len hlen).readAll lens
      Except.ok (ring.contents.take len ++ more, last)) = _
    rw [ih hlens, contents_consume, consume_consume ring hlen hlens hsum]
    simp only [List.sum_cons, List.take_add]
    rfl

end Ring

/-! ## The same transfer again and again -/

/-- Where a ring and an endpoint stand after some transfers, with the calls in order. -/
structure Standing (ε : Type) where
  ring : Ring
  endpoint : ε
  calls : List Call

/-- Where a transfer stands that is made again and again, after `k` times. -/
def again {ε : Type} (transfer : Ring → ε → Transfer ε) (ring : Ring) (endpoint : ε) :
    Nat → Standing ε
  | 0 => ⟨ring, endpoint, []⟩
  | k + 1 =>
    let s := again transfer ring endpoint k
    let t := transfer s.ring s.endpoint
    ⟨t.ring, t.endpoint, s.calls ++ t.calls⟩

/-- Transfers that come to `later` once they have moved `bytes`, which as many of them have done as
    there are bytes. -/
structure ComesTo {ε : Type} (standing : Nat → Standing ε) (moved : List Call → List UInt8)
    (bytes : List UInt8) (later : Ring) : Prop where
  ring_eq : ∀ k, moved (standing k).calls = bytes → (standing k).ring = later
  moved_eq : ∀ k, bytes.length ≤ k → moved (standing k).calls = bytes

/-! ## Readers that hand out chunks -/

/-- What a call with `room` cells gets of the first chunk. -/
def firstPart (room : Nat) : List (List UInt8) → List UInt8
  | [] => []
  | chunk :: _ => chunk.take room

/-- The chunks that such a call leaves: what found no room is put back. -/
def leftOver (room : Nat) : List (List UInt8) → List (List UInt8)
  | [] => []
  | chunk :: chunks => if room < chunk.length then chunk.drop room :: chunks else chunks

/-- A reader that hands out chunks, of which `holds` says what is left: each call gets what there is
    room for of the first one, nothing else is left in the slice, and without a chunk the reader is
    at the end of its stream. -/
structure Reader.HandsOut {ρ : Type} (rd : Reader ρ) (holds : ρ → List (List UInt8) → Prop) :
    Prop where
  read : ∀ {source chunks room}, holds source chunks → 0 < room →
    ∃ later, rd.read source room = (ReadScript.delivery (firstPart room chunks), later) ∧
      holds later (leftOver room chunks)

theorem length_firstPart_le (room : Nat) (chunks : List (List UInt8)) :
    (firstPart room chunks).length ≤ room := by
  cases chunks with
  | nil => exact Nat.zero_le room
  | cons chunk chunks => exact List.length_take_le room chunk

theorem firstPart_append_leftOver (room : Nat) (chunks : List (List UInt8)) :
    firstPart room chunks ++ (leftOver room chunks).flatten = chunks.flatten := by
  cases chunks with
  | nil => rfl
  | cons chunk chunks =>
    simp only [firstPart, leftOver]
    split
    · rw [List.flatten_cons, List.flatten_cons, ← List.append_assoc, List.take_append_drop]
    · next hle => rw [List.flatten_cons, List.take_of_length_le (Nat.le_of_not_lt hle)]

theorem firstPart_ne_nil {room : Nat} {chunks : List (List UInt8)} (hroom : 0 < room)
    (hsome : chunks ≠ []) (hne : ∀ chunk ∈ chunks, chunk ≠ []) : firstPart room chunks ≠ [] := by
  cases chunks with
  | nil => exact absurd rfl hsome
  | cons chunk chunks =>
    have hchunk := List.length_pos_iff.mpr (hne chunk List.mem_cons_self)
    rw [← List.length_pos_iff]
    show 0 < (chunk.take room).length
    rw [List.length_take]
    omega

theorem leftOver_ne_nil {room : Nat} {chunks : List (List UInt8)}
    (hne : ∀ chunk ∈ chunks, chunk ≠ []) : ∀ chunk ∈ leftOver room chunks, chunk ≠ [] := by
  cases chunks with
  | nil => exact hne
  | cons first chunks =>
    have hrest : ∀ chunk ∈ chunks, chunk ≠ [] := fun _ h => hne _ (List.mem_cons_of_mem _ h)
    simp only [leftOver]
    split
    · next hlt =>
      refine List.forall_mem_cons.mpr ⟨?_, hrest⟩
      rw [← List.length_pos_iff, List.length_drop]
      omega
    · exact hrest

/-- What some calls of a reader did that had `chunks` left: what they delivered is all that came in,
    and the reader has the `rest`. -/
structure Brings {ρ : Type} (holds : ρ → List (List UInt8) → Prop) (ring : Ring)
    (chunks : List (List UInt8)) (calls : List Call) (later : Ring) (source : ρ)
    (rest : List (List UInt8)) : Prop where
  appends : ring.Appends (delivered calls) later
  holds : holds source rest
  ne_nil : ∀ chunk ∈ rest, chunk ≠ []
  flatten_eq : delivered calls ++ rest.flatten = chunks.flatten

namespace Brings

variable {ρ : Type} {holds : ρ → List (List UInt8) → Prop} {ring middle later : Ring}
  {chunks rest last : List (List UInt8)} {calls more : List Call} {source source' : ρ}

theorem refl (ring : Ring) (hsource : holds source chunks) (hne : ∀ chunk ∈ chunks, chunk ≠ []) :
    Brings holds ring chunks [] ring source chunks :=
  ⟨.refl ring, hsource, hne, rfl⟩

theorem trans (h : Brings holds ring chunks calls middle source rest)
    (h' : Brings holds middle rest more later source' last) :
    Brings holds ring chunks (calls ++ more) later source' last := by
  refine ⟨?_, h'.holds, h'.ne_nil, ?_⟩
  · rw [delivered_append]
    exact h.appends.trans h'.appends
  · rw [delivered_append, List.append_assoc, h'.flatten_eq, h.flatten_eq]

/-- A ring that has room for all chunks is not full before the last of them is in. -/
theorem size_lt (h : Brings holds ring chunks calls later source rest)
    (hroom : chunks.flatten.length ≤ ring.remaining) (hsome : rest ≠ []) :
    later.size < later.capacity := by
  have hrest : 0 < rest.flatten.length := by
    obtain ⟨chunk, hchunk⟩ := List.exists_mem_of_ne_nil rest hsome
    have hpos := List.length_pos_iff.mpr (h.ne_nil chunk hchunk)
    exact Nat.lt_of_lt_of_le hpos (List.Sublist.length_le (List.sublist_flatten_of_mem hchunk))
  have hlength := congrArg List.length h.flatten_eq
  rw [List.length_append] at hlength
  have hsize := ring.size_le_capacity
  rw [h.appends.size_eq, h.appends.capacity_eq]
  unfold Ring.remaining at hroom
  omega

end Brings

namespace Ring

section Fill

variable {ρ : Type} {rd : Reader ρ} {holds : ρ → List (List UInt8) → Prop}

/-- A delivery that fits puts its bytes behind the newest one. -/
theorem appends_absorbRead {ring : Ring} {bytes : List UInt8} (total : Nat)
    (h : bytes.length ≤ ring.writableRun) :
    ring.Appends bytes (ring.absorbRead (ReadScript.delivery bytes) total).ring := by
  have hend := ring.tail_add_writableRun_le
  have hmoved : (ring.absorbRead (ReadScript.delivery bytes) total).moved = bytes.length := by
    simp only [absorbRead, ReadScript.delivery, h, dite_true]
  have hcells : (ring.absorbRead (ReadScript.delivery bytes) total).ring.cells =
      Cells.patch ring.cells ring.tail (bytes.map some) := by
    rw [cells_absorbRead]
    show Cells.patch ring.cells ring.tail ((bytes.map some).take ring.writableRun) = _
    rw [List.take_of_length_le (by rwa [List.length_map])]
  refine ⟨(moves_absorbRead ring _ total).capacity, (contents_absorbRead ring _ total).2, ?_, ?_, ?_⟩
  · rw [size_absorbRead, hmoved]
  · intro i hi
    have hcell : ring.tail + i < ring.cells.size := by
      show ring.tail + i < ring.capacity
      omega
    rw [hcells, ← tail_add_eq ring (by omega), Cells.getElem?_patch_add _ _ (by simpa) hcell]
    simp
  · intro c hc hne
    rw [hcells]
    by_cases hbefore : c < ring.tail
    · exact Cells.getElem?_patch_of_lt _ _ hbefore
    · apply Cells.getElem?_patch_of_le
      rw [List.length_map]
      -- A cell of the row is one of those that the bytes are put in.
      by_cases hin : c - ring.tail < bytes.length
      · refine absurd ?_ (hne _ hin)
        rw [← tail_add_eq ring (by omega)]
        omega
      · omega

theorem delivered_absorbRead {ring : Ring} {bytes : List UInt8} (total : Nat)
    (h : bytes.length ≤ ring.writableRun) :
    (ring.absorbRead (ReadScript.delivery bytes) total).call.delivered = bytes := by
  have hcontents := (contents_absorbRead ring (ReadScript.delivery bytes) total).1
  rw [(appends_absorbRead total h).contents_eq] at hcontents
  exact (List.append_cancel_left hcontents).symm

/-- One answer of a reader that hands out chunks. -/
theorem brings_absorbRead (hrd : rd.HandsOut holds) {ring : Ring} {source : ρ}
    {chunks : List (List UInt8)} (total : Nat) (hrun : 0 < ring.writableRun)
    (hsource : holds source chunks) (hne : ∀ chunk ∈ chunks, chunk ≠ []) :
    Brings holds ring chunks
        [(ring.absorbRead (rd.read source ring.writableRun).1 total).call]
        (ring.absorbRead (rd.read source ring.writableRun).1 total).ring
        (rd.read source ring.writableRun).2 (leftOver ring.writableRun chunks) ∧
      (chunks ≠ [] →
        (ring.absorbRead (rd.read source ring.writableRun).1 total).call.delivered ≠ []) := by
  obtain ⟨later, hread, hlater⟩ := hrd.read hsource hrun
  have hfits := length_firstPart_le ring.writableRun chunks
  have hdelivered := delivered_absorbRead total hfits
  rw [hread]
  refine ⟨⟨?_, hlater, leftOver_ne_nil hne, ?_⟩, ?_⟩
  · rw [delivered_cons, hdelivered, delivered_nil, List.append_nil]
    exact appends_absorbRead total hfits
  · rw [delivered_cons, hdelivered, delivered_nil, List.append_nil]
    exact firstPart_append_leftOver _ _
  · intro hsome
    rw [hdelivered]
    exact firstPart_ne_nil hrun hsome hne

/-- A fill from a reader that hands out chunks. With room in the ring, it brings in some of them. -/
theorem brings_fillFrom (hrd : rd.HandsOut holds) (ring : Ring) (source : ρ) (total : Nat)
    {chunks : List (List UInt8)} (hsource : holds source chunks)
    (hne : ∀ chunk ∈ chunks, chunk ≠ []) :
    ∃ rest, Brings holds ring chunks (fillFrom rd ring source total).calls
        (fillFrom rd ring source total).ring (fillFrom rd ring source total).endpoint rest ∧
      (chunks ≠ [] → 0 < ring.writableRun →
        delivered (fillFrom rd ring source total).calls ≠ []) := by
  fun_induction fillFrom rd ring source total generalizing chunks with
  | case1 ring source total hrun reply a =>
    rename_i ih
    obtain ⟨hfirst, hsome⟩ := brings_absorbRead hrd total hrun hsource hne
    obtain ⟨rest, hrest, _⟩ := ih hfirst.holds hfirst.ne_nil
    refine ⟨rest, hfirst.trans hrest, fun hchunks _ hnil => hsome hchunks ?_⟩
    exact (List.append_eq_nil_iff.mp hnil).1
  | case2 ring source total hrun reply a =>
    obtain ⟨hfirst, hsome⟩ := brings_absorbRead hrd total hrun hsource hne
    refine ⟨_, hfirst, fun hchunks _ hnil => hsome hchunks ?_⟩
    exact (List.append_eq_nil_iff.mp hnil).1
  | case3 ring source total hrun reply a error =>
    obtain ⟨hfirst, hsome⟩ := brings_absorbRead hrd total hrun hsource hne
    refine ⟨_, hfirst, fun hchunks _ hnil => hsome hchunks ?_⟩
    exact (List.append_eq_nil_iff.mp hnil).1
  | case4 ring source total hrun =>
    exact ⟨chunks, .refl ring hsource hne, fun _ hpos => absurd hpos hrun⟩

/-- Fills from a reader that hands out chunks for which there is room: each brings in one byte at
    least, as long as there are chunks left. -/
theorem brings_again (hrd : rd.HandsOut holds) {ring : Ring} {source : ρ}
    {chunks : List (List UInt8)} (hsource : holds source chunks)
    (hne : ∀ chunk ∈ chunks, chunk ≠ []) (hroom : chunks.flatten.length ≤ ring.remaining) (k : Nat) :
    ∃ rest, Brings holds ring chunks (again (fun ring => ring.fill rd) ring source k).calls
        (again (fun ring => ring.fill rd) ring source k).ring
        (again (fun ring => ring.fill rd) ring source k).endpoint rest ∧
      (rest = [] ∨
        k ≤ (delivered (again (fun ring => ring.fill rd) ring source k).calls).length) := by
  induction k with
  | zero => exact ⟨chunks, .refl ring hsource hne, .inr (Nat.zero_le _)⟩
  | succ k ih =>
    obtain ⟨rest, hbrings, hcount⟩ := ih
    obtain ⟨last, hfill, hsome⟩ := brings_fillFrom hrd
      (again (fun ring => ring.fill rd) ring source k).ring
      (again (fun ring => ring.fill rd) ring source k).endpoint 0 hbrings.holds hbrings.ne_nil
    refine ⟨last, hbrings.trans hfill, ?_⟩
    by_cases hrest : rest = []
    · -- All chunks were in before this fill.
      left
      have hflatten := hfill.flatten_eq
      rw [hrest, List.flatten_nil, List.append_eq_nil_iff] at hflatten
      refine List.eq_nil_iff_forall_not_mem.mpr fun chunk hchunk => ?_
      exact hfill.ne_nil chunk hchunk (List.flatten_eq_nil_iff.mp hflatten.2 chunk hchunk)
    · right
      have hbefore := hcount.resolve_left hrest
      have hrun : 0 < (again (fun ring => ring.fill rd) ring source k).ring.writableRun := by
        rw [Nat.pos_iff_ne_zero, Ne, writableRun_eq_zero_iff]
        exact Nat.ne_of_lt (hbrings.size_lt hroom hrest)
      have hpos := List.length_pos_iff.mpr (hsome hrest hrun)
      show k + 1 ≤ (delivered (_ ++ _)).length
      rw [delivered_append, List.length_append]
      exact Nat.add_le_add hbefore hpos

/-- Fills from a reader that hands out chunks for which there is room. -/
theorem comesTo_fill (hrd : rd.HandsOut holds) {ring later : Ring} {source : ρ}
    {chunks : List (List UInt8)} (hsource : holds source chunks)
    (hne : ∀ chunk ∈ chunks, chunk ≠ []) (hroom : chunks.flatten.length ≤ ring.remaining)
    (hlater : ring.Appends chunks.flatten later) :
    ComesTo (again (fun ring => ring.fill rd) ring source) delivered chunks.flatten later := by
  constructor
  · intro k hk
    obtain ⟨rest, hbrings, _⟩ := brings_again hrd hsource hne hroom k
    have happends := hbrings.appends
    rw [hk] at happends
    exact happends.unique hlater
  · intro k hk
    obtain ⟨rest, hbrings, hcount⟩ := brings_again hrd hsource hne hroom k
    have hflatten := hbrings.flatten_eq
    have hnone : rest.flatten = [] := by
      rcases hcount with rfl | hcount
      · rfl
      · have hlength := congrArg List.length hflatten
        rw [List.length_append] at hlength
        exact List.length_eq_zero_iff.mp (by omega)
    rwa [hnone, List.append_nil] at hflatten

end Fill

end Ring

/-! ## Writers that take a number of bytes -/

/-- A writer that takes as many bytes as `wants` says, in amounts of its own: as long as it wants
    some, each call takes one at least of what it is offered, and then none. -/
structure Writer.TakesUpTo {ω : Type} (wr : Writer ω) (wants : ω → Nat → Prop) : Prop where
  write : ∀ {sink n offered}, wants sink n → offered ≠ [] →
    ∃ m later, wr.write sink offered = (.ok m, later) ∧ m ≤ offered.length ∧ m ≤ n ∧
      (0 < n → 0 < m) ∧ wants later (n - m)

namespace Ring

section Drain

variable {ω : Type} {wr : Writer ω} {wants : ω → Nat → Prop}

theorem takesOut_again (wr : Writer ω) (ring : Ring) (sink : ω) (k : Nat) :
    TakesOut ring (again (fun ring => ring.drain wr) ring sink k).calls
      (again (fun ring => ring.drain wr) ring sink k).ring := by
  induction k with
  | zero => exact .refl ring
  | succ k ih => exact ih.trans (takesOut_drain wr _ _)

/-- A drain to a writer that wants no more than there is. It gets one byte at least if it wants
    some. -/
theorem takes_drain (hwr : wr.TakesUpTo wants) (ring : Ring) {sink : ω} {n : Nat}
    (hsink : wants sink n) (hn : n ≤ ring.size) :
    (acknowledged (ring.drain wr sink).calls).length ≤ n ∧
      (0 < n → 0 < (acknowledged (ring.drain wr sink).calls).length) ∧
      wants (ring.drain wr sink).endpoint
        (n - (acknowledged (ring.drain wr sink).calls).length) := by
  have hwrites := writes_drain wr ring sink
  have hfirst : 0 < ring.size → ring.contents.take ring.live.first.length ≠ [] := by
    intro hsome
    rw [live_first, ← List.length_pos_iff, length_readable, ← length_live_first]
    exact length_live_first_pos hsome
  generalize (ring.drain wr sink).calls = calls, (ring.drain wr sink).endpoint = last,
    (ring.drain wr sink).result = result at hwrites ⊢
  cases hwrites with
  | none hempty =>
    obtain rfl : n = 0 := by omega
    exact ⟨Nat.le_refl _, id, hsink⟩
  | once hsome hwrite hlast hresult =>
    obtain ⟨m, later, hm, hoffered, hle, hpos, hlater⟩ := hwr.write hsink (hfirst hsome)
    rw [hm] at hwrite
    cases hwrite
    rw [acknowledged_cons, acknowledged_nil, List.append_nil, Call.length_acknowledged hoffered]
    exact ⟨hle, hpos, hlater⟩
  | twice hsome hwrite hfull hwrap hwrite' hresult =>
    have hsecond : ring.contents.drop ring.live.first.length ≠ [] := by
      rw [← contents_behindFirst, ← List.length_pos_iff, length_contents, size_behindFirst]
      exact hwrap
    obtain ⟨m, later, hm, hoffered, hle, hpos, hlater⟩ := hwr.write hsink (hfirst hsome)
    obtain ⟨m', later', hm', hoffered', hle', hpos', hlater'⟩ := hwr.write hlater hsecond
    rw [hm] at hwrite
    cases hwrite
    rw [hm'] at hwrite'
    cases hwrite'
    rw [acknowledged_cons, acknowledged_cons, acknowledged_nil, List.append_nil, List.length_append,
      Call.length_acknowledged hoffered, Call.length_acknowledged hoffered']
    refine ⟨by omega, fun h => Nat.lt_of_lt_of_le (hpos h) (Nat.le_add_right m m'), ?_⟩
    rwa [← Nat.sub_sub]

/-- Drains to a writer that wants no more than there is: each takes one byte at least, as long as it
    wants some. -/
theorem takes_again (hwr : wr.TakesUpTo wants) {ring : Ring} {sink : ω} {n : Nat}
    (hsink : wants sink n) (hn : n ≤ ring.size) (k : Nat) :
    (acknowledged (again (fun ring => ring.drain wr) ring sink k).calls).length ≤ n ∧
      min k n ≤ (acknowledged (again (fun ring => ring.drain wr) ring sink k).calls).length ∧
      wants (again (fun ring => ring.drain wr) ring sink k).endpoint
        (n - (acknowledged (again (fun ring => ring.drain wr) ring sink k).calls).length) := by
  induction k with
  | zero => exact ⟨Nat.zero_le _, Nat.min_le_left _ _, hsink⟩
  | succ k ih =>
    obtain ⟨hle, hcount, hwants⟩ := ih
    have hsize := (takesOut_again wr ring sink k).size_eq
    obtain ⟨hle', hpos', hwants'⟩ :=
      takes_drain hwr (again (fun ring => ring.drain wr) ring sink k).ring hwants (by omega)
    simp only [again, acknowledged_append, List.length_append]
    rw [Nat.sub_sub] at hwants'
    exact ⟨by omega, by omega, hwants'⟩

/-- Drains to a writer that wants no more than there is. -/
theorem comesTo_drain (hwr : wr.TakesUpTo wants) {ring : Ring} {sink : ω} {n : Nat}
    (hsink : wants sink n) (hn : n ≤ ring.size) :
    ComesTo (again (fun ring => ring.drain wr) ring sink) acknowledged (ring.contents.take n)
      (ring.consume n hn) := by
  have hlength : (ring.contents.take n).length = n := by
    rw [List.length_take, length_contents, Nat.min_eq_left hn]
  constructor
  · intro k hk
    obtain ⟨hle, heq⟩ := (takesOut_again wr ring sink k).eq_consume
    rw [heq]
    congr 1
    rw [hk, hlength]
  · intro k hk
    obtain ⟨hle, hcount, _⟩ := takes_again hwr hsink hn k
    rw [(takesOut_again wr ring sink k).acknowledged_eq]
    congr 1
    omega

end Drain

end Ring

/-! ## Scripts -/

theorem ReadScript.read_chunks (chunks : List (List UInt8)) (room : Nat) :
    read (chunks.map .data) room =
      (delivery (firstPart room chunks), (leftOver room chunks).map .data) := by
  cases chunks with
  | nil => rfl
  | cons chunk chunks =>
    simp only [List.map_cons, read, firstPart, leftOver, putBack, List.isEmpty_iff,
      List.drop_eq_nil_iff]
    by_cases h : room < chunk.length
    · rw [if_pos h, if_neg (Nat.not_le.mpr h)]
      rfl
    · rw [if_neg h, if_pos (Nat.le_of_not_lt h)]
      rfl

/-- A script that has nothing but data, apart from its pauses, hands out its chunks. -/
theorem ReadScript.handsOut_reader :
    reader.HandsOut fun script chunks => script.active = chunks.map .data where
  read {script chunks room} hscript hroom := by
    have hactive := read_active script room
    rw [hscript, read_chunks, Prod.mk.injEq] at hactive
    exact ⟨(read script room).2, Prod.ext hactive.1.symm rfl, hactive.2.symm⟩

theorem ReadScript.handsOut_waitingReader :
    waitingReader.settled.HandsOut fun script chunks => script.active = chunks.map .data where
  read {script chunks room} hscript hroom := by
    obtain ⟨later, hread, hlater⟩ := handsOut_reader.read hscript hroom
    refine ⟨later, ?_, hlater⟩
    rw [settled_read, show read script room = _ from hread,
      clamp_delivery (length_firstPart_le room chunks)]

/-- A script that takes one byte `n` times, apart from its pauses, and then none. -/
theorem WriteScript.takesUpTo_writer :
    writer.TakesUpTo fun script n =>
      script.active = ⟨List.replicate n (.accept 1), some 0, script.flushes⟩ where
  write {script n offered} hscript hoffered := by
    have hactive := write_active script offered
    have hpos := List.length_pos_iff.mpr hoffered
    rw [hscript] at hactive
    cases n with
    | zero =>
      have hnone : write ⟨[], some 0, script.flushes⟩ offered =
          (.ok 0, ⟨[], some 0, script.flushes⟩) := by
        simp [write, answer, taken]
      rw [List.replicate_zero, hnone, Prod.mk.injEq] at hactive
      exact ⟨0, (write script offered).2, Prod.ext hactive.1.symm rfl, Nat.zero_le _,
        Nat.le_refl 0, id, hactive.2.symm⟩
    | succ n =>
      have hone : write ⟨.accept 1 :: List.replicate n (.accept 1), some 0, script.flushes⟩ offered =
          (.ok 1, ⟨List.replicate n (.accept 1), some 0, script.flushes⟩) := by
        simp only [write, answer, taken, Nat.min_eq_left hpos]
      rw [List.replicate_succ, hone, Prod.mk.injEq] at hactive
      exact ⟨1, (write script offered).2, Prod.ext hactive.1.symm rfl, hpos, by omega,
        fun _ => Nat.one_pos, hactive.2.symm⟩

/-! ## All of them -/

namespace Ring

/-- Every way to put the bytes of some chunks into a ring ends in `later`. -/
structure EveryWayIn (ring : Ring) (chunks : List (List UInt8)) (later : Ring) : Prop where
  write_eq : ring.write chunks.flatten = .ok later
  writeAll_eq : ring.writeAll chunks = .ok later
  fill : ∀ {ρ : Type} {rd : Reader ρ} {holds : ρ → List (List UInt8) → Prop} {source : ρ},
    rd.HandsOut holds → holds source chunks →
      ComesTo (again (fun ring => ring.fill rd) ring source) delivered chunks.flatten later
  fillWaiting : ∀ {ρ : Type} {rd : WaitingReader ρ} {holds : ρ → List (List UInt8) → Prop}
    {source : ρ}, rd.settled.HandsOut holds → holds source chunks →
      ComesTo (again (fun ring => ring.fillWaiting rd) ring source) delivered chunks.flatten later

/-- Every way to take the first `n` bytes out of a ring takes the same bytes and ends in `later`. -/
structure EveryWayOut (ring : Ring) (n : Nat) (later : Ring) : Prop where
  read_eq : ring.read n = .ok (ring.contents.take n, later)
  readAll_eq : ∀ {lens : List Nat}, lens.sum = n →
    ring.readAll lens = .ok (ring.contents.take n, later)
  drain : ∀ {ω : Type} {wr : Writer ω} {wants : ω → Nat → Prop} {sink : ω},
    wr.TakesUpTo wants → wants sink n →
      ComesTo (again (fun ring => ring.drain wr) ring sink) acknowledged (ring.contents.take n) later
  drainWaiting : ∀ {ω : Type} {wr : WaitingWriter ω} {wants : ω → Nat → Prop} {sink : ω},
    wr.settled.TakesUpTo wants → wants sink n →
      ComesTo (again (fun ring => ring.drainWaiting wr) ring sink) acknowledged
        (ring.contents.take n) later

theorem everyWayIn (ring : Ring) {chunks : List (List UInt8)}
    (hne : ∀ chunk ∈ chunks, chunk ≠ []) (hroom : chunks.flatten.length ≤ ring.remaining) :
    ∃ later, ring.EveryWayIn chunks later := by
  obtain ⟨later, hwrite, hlater⟩ := appends_write hroom
  obtain ⟨last, hwrites, hlast⟩ := appends_writeAll hroom
  refine ⟨later, hwrite, ?_, ?_, ?_⟩
  · rw [hwrites, hlast.unique hlater]
  · intro ρ rd holds source hrd hsource
    exact comesTo_fill hrd hsource hne hroom hlater
  · intro ρ rd holds source hrd hsource
    simp only [fillWaiting_eq_settled]
    exact comesTo_fill hrd hsource hne hroom hlater

theorem everyWayOut (ring : Ring) {n : Nat} (hn : n ≤ ring.size) :
    ∃ later, ring.EveryWayOut n later := by
  refine ⟨ring.consume n hn, read_eq ring hn, ?_, ?_, ?_⟩
  · rintro lens rfl
    exact readAll_eq hn
  · intro ω wr wants sink hwr hsink
    exact comesTo_drain hwr hsink hn
  · intro ω wr wants sink hwr hsink
    simp only [drainWaiting_eq_settled]
    exact comesTo_drain hwr hsink hn

/-- Bytes that fit come to one ring on every way in, whatever their chunks, and the first bytes of a
    ring are the same and leave one ring on every way out. -/
theorem path_independent (ring : Ring) :
    (∀ chunks : List (List UInt8), (∀ chunk ∈ chunks, chunk ≠ []) →
        chunks.flatten.length ≤ ring.remaining → ∃ later, ring.EveryWayIn chunks later) ∧
      ∀ n ≤ ring.size, ∃ later, ring.EveryWayOut n later :=
  ⟨fun _ => ring.everyWayIn, fun _ => ring.everyWayOut⟩

/-- Five cells with one byte in the middle, so that the free cells go around the end of the
    array. -/
def fiveCells : Ring := ⟨#[0, 0, 5, 0, 0], 2, 1, by decide, by decide, by decide⟩

/-- Two chunks of which the first does not fit in front of the end of the array, and two bytes that
    are on both sides of it. -/
theorem path_independent_aroundEnd :
    (∃ later, fiveCells.write [6, 7, 8, 9] = .ok later ∧ later.cells = #[8, 9, 5, 6, 7] ∧
        fiveCells.writeAll [[6, 7, 8], [9]] = .ok later ∧
        (again (fun ring => ring.fill ReadScript.reader) fiveCells
          [.data [6, 7, 8], .notReady, .data [9]] 4).ring = later ∧
        (again (fun ring => ring.fillWaiting ReadScript.waitingReader) fiveCells
          [.notReady, .data [6, 7, 8], .data [9]] 4).ring = later) ∧
      ∃ later, aroundEnd.read 2 = .ok ([1, 2], later) ∧
        aroundEnd.readAll [1, 0, 1] = .ok ([1, 2], later) ∧
        (again (fun ring => ring.drain WriteScript.writer) aroundEnd
          ⟨[.accept 1, .notReady, .accept 1], some 0, []⟩ 2).ring = later ∧
        (again (fun ring => ring.drainWaiting WriteScript.waitingWriter) aroundEnd
          ⟨[.notReady, .accept 1, .accept 1], some 0, []⟩ 2).ring = later := by
  obtain ⟨later, hin⟩ := (path_independent fiveCells).1 [[6, 7, 8], [9]] (by decide) (by decide)
  obtain ⟨last, hout⟩ := (path_independent aroundEnd).2 2 (by decide)
  have hcells : (fiveCells.write [6, 7, 8, 9]).map Ring.cells = .ok #[8, 9, 5, 6, 7] := rfl
  have hsource : ReadScript.active [.data [6, 7, 8], .notReady, .data [9]] =
    [[6, 7, 8], [9]].map .data := rfl
  have hsource' : ReadScript.active [.notReady, .data [6, 7, 8], .data [9]] =
    [[6, 7, 8], [9]].map .data := rfl
  have hsink : WriteScript.active ⟨[.accept 1, .notReady, .accept 1], some 0, []⟩ =
    ⟨List.replicate 2 (.accept 1), some 0, []⟩ := rfl
  have hsink' : WriteScript.active ⟨[.notReady, .accept 1, .accept 1], some 0, []⟩ =
    ⟨List.replicate 2 (.accept 1), some 0, []⟩ := rfl
  have hwriter := WriteScript.takesUpTo_writer
  rw [← WriteScript.settled_waitingWriter] at hwriter
  have hfill := hin.fill ReadScript.handsOut_reader hsource
  have hwaiting := hin.fillWaiting ReadScript.handsOut_waitingReader hsource'
  have hdrain := hout.drain WriteScript.takesUpTo_writer hsink
  have hdrainWaiting := hout.drainWaiting hwriter hsink'
  refine ⟨⟨later, hin.write_eq, ?_, hin.writeAll_eq, hfill.ring_eq 4 (hfill.moved_eq 4 ?_),
    hwaiting.ring_eq 4 (hwaiting.moved_eq 4 ?_)⟩, last, hout.read_eq, hout.readAll_eq rfl,
    hdrain.ring_eq 2 (hdrain.moved_eq 2 ?_), hdrainWaiting.ring_eq 2 (hdrainWaiting.moved_eq 2 ?_)⟩
  · rw [show fiveCells.write [6, 7, 8, 9] = .ok later from hin.write_eq] at hcells
    exact Except.ok.inj hcells
  · decide
  · decide
  · decide
  · decide

end Ring

end RingRelay
