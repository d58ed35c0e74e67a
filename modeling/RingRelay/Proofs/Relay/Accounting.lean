import RingRelay.Proofs.Relay.EndOfStream
/- The counts of a relay and the calls of its writer.

   `Books` ties the four counts to the calls so far. At some stages a count is behind by what
   the stage has not counted yet: a fill by the bytes it has staged, a drain by the bytes it has moved
   and by the drain itself. The writer's calls come in blocks, one for each drain that is counted
   (`Drain`), and the stage says what there is behind the last of them (`Stage.Rest`). Every poll
   keeps the books, unless the relay fails by it (`Advances.booked`), so they are right when the relay
   ends well (`accounted_of_ok`).

   The counts are natural numbers here. However a relay ends, none of them is above the number of the
   bytes there were (`covered_moments`), so words of 64 bits hold them as long as there were fewer
   than 2 ^ 64 bytes (`Returned.counts_lt`). -/
namespace RingRelay

/-- A write of which the writer took over as much as it reports. -/
def Call.Accepted : Call → Prop
  | .write offered (.ok n) => n ≤ offered.length
  | _ => False

theorem Call.Accepted.room {call : Call} (h : call.Accepted) : call.room? = none := by
  cases call with
  | read => exact h.elim
  | _ => rfl

namespace Relay

/-- The calls of the writer among the calls of a relay. -/
def writerCalls (calls : List Call) : List Call := calls.filter fun call => call.room?.isNone

/-- The calls that drain the ring to empty once: some writes, which the writer accepts, and a flush
    behind them if it is asked for. -/
def Drain (options : RelayOptions) (calls : List Call) : Prop :=
  ∃ writes, writes ≠ [] ∧ (∀ call ∈ writes, call.Accepted) ∧
    calls = writes ++ if options.flushOnDrain then [.flush (.ok ())] else []

/-- The flushes that a relay of `drains` drains makes up to its good end. -/
def flushCount (options : RelayOptions) (drains : Nat) : Nat :=
  (if options.flushOnDrain then drains else 0) + 1

namespace Stage

/-- The bytes that a fill has staged and not counted yet. -/
def staged : Stage → Nat
  | .filling total => total
  | _ => 0

/-- The bytes that a drain has moved and not counted yet. -/
def taken : Stage → Nat
  | .draining _ total => total
  | _ => 0

/-- The drain that is under way and not counted yet. -/
def owed : Stage → Nat
  | .draining _ _ => 1
  | _ => 0

/-- The drain that is counted and not flushed yet. -/
def unflushed : Stage → Nat
  | .flushing => 1
  | _ => 0

/-- What the writer has been called for since the last block of its calls. -/
def Rest (options : RelayOptions) (rest : List Call) : Stage → Prop
  | .filling _ => rest = []
  | .draining _ _ => ∀ call ∈ rest, call.Accepted
  | .flushing => rest ≠ [] ∧ (∀ call ∈ rest, call.Accepted) ∧ options.flushOnDrain = true
  | .finishing => rest = []
  | .ended _ => rest = [.flush (.ok ())]

/-- The relay has failed. -/
def Failed : Stage → Prop
  | .ended (.error _) => True
  | _ => False

end Stage

/-- The writer's calls up to a stage, when `drains` drains are counted. -/
def Blocks (options : RelayOptions) (calls : List Call) (drains : Nat) (stage : Stage) : Prop :=
  ∃ (blocks : List (List Call)) (rest : List Call), writerCalls calls = blocks.flatten ++ rest ∧
    blocks.length + stage.unflushed = drains ∧ (∀ block ∈ blocks, Drain options block) ∧
    stage.Rest options rest

/-- The counts of a relay that began with the ring `first`, and the calls of its writer. -/
structure Books (first : Ring) (options : RelayOptions) (stats : RelayStats) (calls : List Call)
    (stage : Stage) : Prop where
  bytesIn : stats.bytesIn + stage.staged = first.size + (delivered calls).length
  bytesOut : stats.bytesOut + stage.taken = (acknowledged calls).length
  drains : stats.drains + stage.owed = stats.fills + if first.size = 0 then 0 else 1
  fills_le : first.size + stats.fills ≤ stats.bytesIn
  bytesIn_le : stats.bytesIn ≤ first.size + stats.fills * first.capacity
  result : ∀ last, stage = .ended (.ok last) → last = stats
  blocks : Blocks options calls stats.drains stage

/-- The books of a relay are right, or it has failed. -/
def Moment.Booked {ρ ω : Type} (first : Ring) (options : RelayOptions) (m : Moment ρ ω) : Prop :=
  m.stage.Failed ∨ Books first options m.state.stats m.state.calls.toList m.stage

/-! ## The writer's calls -/

theorem writerCalls_concat_of_read {calls : List Call} {call : Call} (h : call.room? ≠ none) :
    writerCalls (calls ++ [call]) = writerCalls calls := by
  simp [writerCalls, h]

theorem writerCalls_concat {calls : List Call} {call : Call} (h : call.room? = none) :
    writerCalls (calls ++ [call]) = writerCalls calls ++ [call] := by
  simp [writerCalls, h]

theorem filter_isFlush_of_drain {options : RelayOptions} {block : List Call}
    (h : Drain options block) :
    block.filter Call.isFlush = if options.flushOnDrain then [.flush (.ok ())] else [] := by
  obtain ⟨writes, _, haccepted, rfl⟩ := h
  have hnone : writes.filter Call.isFlush = [] := by
    rw [List.filter_eq_nil_iff]
    intro call hmem
    have := haccepted call hmem
    cases call with
    | flush => exact this.elim
    | _ => simp [Call.isFlush]
  rw [List.filter_append, hnone, List.nil_append]
  split <;> rfl

/-- The flushes of a relay are among the calls of its writer. -/
theorem filter_isFlush_writerCalls (calls : List Call) :
    (writerCalls calls).filter Call.isFlush = calls.filter Call.isFlush := by
  unfold writerCalls
  rw [List.filter_filter]
  apply List.filter_congr
  intro call _
  cases call <;> rfl

theorem filter_isFlush_flatten {options : RelayOptions} {blocks : List (List Call)}
    (h : ∀ block ∈ blocks, Drain options block) :
    (blocks.flatten ++ [Call.flush (.ok ())]).filter Call.isFlush =
      List.replicate (flushCount options blocks.length) (.flush (.ok ())) := by
  induction blocks with
  | nil => simp [flushCount, Call.isFlush]
  | cons block blocks ih =>
    obtain ⟨hfirst, hrest⟩ := List.forall_mem_cons.mp h
    rw [List.flatten_cons, List.append_assoc, List.filter_append, ih hrest,
      filter_isFlush_of_drain hfirst]
    unfold flushCount
    split
    · rw [List.length_cons, Nat.add_right_comm, List.replicate_succ]
      rfl
    · rfl

namespace Blocks

variable {options : RelayOptions} {calls : List Call} {drains total : Nat} {call : Call}

/-- Behind a fill the writer has not been called for anything new. -/
theorem behindFill {stage : Stage} (h : Blocks options calls drains (.filling total))
    (hflush : stage.unflushed = 0) (hrest : stage.Rest options []) :
    Blocks options calls drains stage := by
  obtain ⟨blocks, rest, hcalls, hlength, hdrains, rfl⟩ := h
  refine ⟨blocks, [], hcalls, ?_, hdrains, hrest⟩
  rw [hflush]
  exact hlength

theorem read {total' : Nat} (h : Blocks options calls drains (.filling total))
    (hread : call.room? ≠ none) : Blocks options (calls ++ [call]) drains (.filling total') := by
  obtain ⟨blocks, rest, hcalls, hlength, hdrains, rfl⟩ := h
  refine ⟨blocks, [], ?_, hlength, hdrains, rfl⟩
  rw [writerCalls_concat_of_read hread, hcalls]

theorem write {pending pending' total' : Nat}
    (h : Blocks options calls drains (.draining pending total)) (hcall : call.Accepted) :
    Blocks options (calls ++ [call]) drains (.draining pending' total') := by
  obtain ⟨blocks, rest, hcalls, hlength, hdrains, hrest⟩ := h
  refine ⟨blocks, rest ++ [call], ?_, hlength, hdrains, ?_⟩
  · rw [writerCalls_concat hcall.room, hcalls, List.append_assoc]
  · exact List.forall_mem_append.mpr ⟨hrest, List.forall_mem_singleton.mpr hcall⟩

/-- The write that empties the ring is the last one of its block, which is complete now or after a
    flush. -/
theorem emptied {pending : Nat} (h : Blocks options calls drains (.draining pending total))
    (hcall : call.Accepted) :
    Blocks options (calls ++ [call]) (drains + 1) (.behindDrain options) := by
  obtain ⟨blocks, rest, hcalls, hlength, hdrains, hrest⟩ := h
  have haccepted : ∀ write ∈ rest ++ [call], write.Accepted :=
    List.forall_mem_append.mpr ⟨hrest, List.forall_mem_singleton.mpr hcall⟩
  have hblock : rest ++ [call] ≠ [] := List.concat_ne_nil call rest
  have hmore : writerCalls (calls ++ [call]) = blocks.flatten ++ (rest ++ [call]) := by
    rw [writerCalls_concat hcall.room, hcalls, List.append_assoc]
  unfold Stage.behindDrain
  split
  · next hflush =>
    exact ⟨blocks, rest ++ [call], hmore, congrArg (· + 1) hlength, hdrains,
      hblock, haccepted, hflush⟩
  · next hflush =>
    refine ⟨blocks ++ [rest ++ [call]], [], ?_, ?_, ?_, rfl⟩
    · rw [hmore, List.flatten_concat, List.append_nil]
    · rw [List.length_append]
      exact congrArg (· + 1) hlength
    · refine List.forall_mem_append.mpr ⟨hdrains, List.forall_mem_singleton.mpr ?_⟩
      exact ⟨rest ++ [call], hblock, haccepted, by rw [if_neg hflush, List.append_nil]⟩

theorem flushed (h : Blocks options calls drains .flushing) :
    Blocks options (calls ++ [.flush (.ok ())]) drains (.filling 0) := by
  obtain ⟨blocks, rest, hcalls, hlength, hdrains, hblock, haccepted, hflush⟩ := h
  refine ⟨blocks ++ [rest ++ [.flush (.ok ())]], [], ?_, ?_, ?_, rfl⟩
  · rw [writerCalls_concat rfl, hcalls, List.flatten_concat, List.append_nil, List.append_assoc]
  · rw [List.length_append]
    exact hlength
  · refine List.forall_mem_append.mpr ⟨hdrains, List.forall_mem_singleton.mpr ?_⟩
    exact ⟨rest, hblock, haccepted, by rw [if_pos hflush]⟩

theorem finished (h : Blocks options calls drains .finishing) (stats : RelayStats) :
    Blocks options (calls ++ [.flush (.ok ())]) drains (.ended (.ok stats)) := by
  obtain ⟨blocks, rest, hcalls, hlength, hdrains, rfl⟩ := h
  refine ⟨blocks, [.flush (.ok ())], ?_, hlength, hdrains, rfl⟩
  rw [writerCalls_concat rfl, hcalls, List.append_nil]

end Blocks

/-! ## One call, one count -/

theorem length_delivered_concat (calls : List Call) (call : Call) :
    (delivered (calls ++ [call])).length = (delivered calls).length + call.delivered.length := by
  simp

theorem length_acknowledged_concat (calls : List Call) (call : Call) :
    (acknowledged (calls ++ [call])).length =
      (acknowledged calls).length + call.acknowledged.length := by
  simp

namespace Books

variable {first : Ring} {options : RelayOptions} {stats : RelayStats} {calls : List Call}
  {pending total moved : Nat} {call : Call}

/-- A read is booked as staged. -/
theorem read (h : Books first options stats calls (.filling total)) (hread : call.room? ≠ none)
    (htaken : call.acknowledged = []) (hmoved : call.delivered.length = moved) :
    Books first options stats (calls ++ [call]) (.filling (total + moved)) where
  bytesIn := by
    rw [length_delivered_concat, hmoved, Stage.staged, ← Nat.add_assoc, ← Nat.add_assoc]
    exact congrArg (· + moved) h.bytesIn
  bytesOut := by
    rw [length_acknowledged_concat, htaken]
    exact h.bytesOut
  drains := h.drains
  fills_le := h.fills_le
  bytesIn_le := h.bytesIn_le
  result := nofun
  blocks := h.blocks.read hread

/-- What a fill has staged is counted, and a drain is begun. -/
theorem countFill (h : Books first options stats calls (.filling total)) (hpos : 0 < total)
    (hle : total ≤ first.capacity) :
    Books first options
      { stats with bytesIn := stats.bytesIn + total, fills := stats.fills + 1 } calls
      (.draining pending 0) where
  bytesIn := h.bytesIn
  bytesOut := h.bytesOut
  drains := by
    have := h.drains
    simp only [Stage.owed] at this ⊢
    omega
  fills_le := by
    have := h.fills_le
    simp only
    omega
  bytesIn_le := by
    have := h.bytesIn_le
    rw [Nat.add_one_mul]
    simp only
    omega
  result := nofun
  blocks := h.blocks.behindFill rfl nofun

/-- A fill that brought nothing leaves nothing to be counted. -/
theorem endStream (h : Books first options stats calls (.filling 0)) :
    Books first options stats calls .finishing :=
  ⟨h.bytesIn, h.bytesOut, h.drains, h.fills_le, h.bytesIn_le, nofun, h.blocks.behindFill rfl rfl⟩

/-- A write is booked as taken. -/
theorem write (h : Books first options stats calls (.draining pending total))
    (hcall : call.Accepted) (hnone : call.delivered = [])
    (hmoved : call.acknowledged.length = moved) :
    Books first options stats (calls ++ [call]) (.draining pending (total + moved)) where
  bytesIn := by
    rw [length_delivered_concat, hnone]
    exact h.bytesIn
  bytesOut := by
    rw [length_acknowledged_concat, hmoved, Stage.taken, ← Nat.add_assoc]
    exact congrArg (· + moved) h.bytesOut
  drains := h.drains
  fills_le := h.fills_le
  bytesIn_le := h.bytesIn_le
  result := nofun
  blocks := h.blocks.write hcall

/-- What a drain has taken is counted, and a drain of the rest is begun. -/
theorem countTaken {pending' : Nat}
    (h : Books first options stats calls (.draining pending total)) :
    Books first options { stats with bytesOut := stats.bytesOut + total } calls
      (.draining pending' 0) :=
  ⟨h.bytesIn, h.bytesOut, h.drains, h.fills_le, h.bytesIn_le, nofun, h.blocks⟩

/-- The write that empties the ring is counted together with the drain it completes. -/
theorem empty (h : Books first options stats calls (.draining pending total))
    (hcall : call.Accepted) (hnone : call.delivered = [])
    (hmoved : call.acknowledged.length = moved) :
    Books first options
      { stats with bytesOut := stats.bytesOut + (total + moved), drains := stats.drains + 1 }
      (calls ++ [call]) (.behindDrain options) := by
  have hbooks := h.write hcall hnone hmoved
  have hblocks := h.blocks.emptied hcall
  unfold Stage.behindDrain at hblocks ⊢
  split
  · next hflush =>
    rw [if_pos hflush] at hblocks
    exact ⟨hbooks.bytesIn, hbooks.bytesOut, hbooks.drains, hbooks.fills_le, hbooks.bytesIn_le,
      nofun, hblocks⟩
  · next hflush =>
    rw [if_neg hflush] at hblocks
    exact ⟨hbooks.bytesIn, hbooks.bytesOut, hbooks.drains, hbooks.fills_le, hbooks.bytesIn_le,
      nofun, hblocks⟩

theorem flush (h : Books first options stats calls .flushing) :
    Books first options stats (calls ++ [.flush (.ok ())]) (.filling 0) where
  bytesIn := by
    rw [length_delivered_concat]
    exact h.bytesIn
  bytesOut := by
    rw [length_acknowledged_concat]
    exact h.bytesOut
  drains := h.drains
  fills_le := h.fills_le
  bytesIn_le := h.bytesIn_le
  result := nofun
  blocks := h.blocks.flushed

theorem finish (h : Books first options stats calls .finishing) :
    Books first options stats (calls ++ [.flush (.ok ())]) (.ended (.ok stats)) where
  bytesIn := by
    rw [length_delivered_concat]
    exact h.bytesIn
  bytesOut := by
    rw [length_acknowledged_concat]
    exact h.bytesOut
  drains := h.drains
  fills_le := h.fills_le
  bytesIn_le := h.bytesIn_le
  result := by
    rintro last ⟨⟩
    rfl
  blocks := h.blocks.finished stats

end Books

/-! ## One poll -/

variable {ρ ω : Type} {rd : RawReader ρ} {wr : RawWriter ω} {options : RelayOptions}

theorem State.Reads.room {s : State ρ ω} {total : Nat} {a : Absorbed} {source : ρ}
    (h : s.Reads rd total a source) : a.call.room? ≠ none := by
  cases h
  rw [Ring.room_absorbRead]
  nofun

theorem State.Writes.accepted {s : State ρ ω} {total : Nat} {a : Absorbed} {sink : ω}
    (h : s.Writes wr total a sink) (hok : ∀ error, a.step ≠ .failed error) : a.call.Accepted := by
  obtain ⟨offered, hcall, hle⟩ := h.call_of_ok hok
  rw [hcall]
  exact hle

/-- A relay that begins has counted what is in the ring. -/
theorem booked_first (options : RelayOptions) (ring : Ring) (source : ρ) (sink : ω) :
    (enterDrain (initial ring source sink)).Booked ring options := by
  unfold enterDrain
  split
  · next h =>
    have hempty : ring.size = 0 := h
    have hdrains : 0 + 0 = 0 + if ring.size = 0 then 0 else 1 := by rw [if_pos hempty]
    rw [enterFill_of_empty h]
    exact .inr ⟨rfl, rfl, hdrains, Nat.le_refl _, Nat.le_add_right _ _, nofun,
      [], [], rfl, rfl, nofun, rfl⟩
  · next h =>
    have hsome : ¬ring.size = 0 := h
    have hdrains : 0 + 1 = 0 + if ring.size = 0 then 0 else 1 := by rw [if_neg hsome]
    exact .inr ⟨rfl, rfl, hdrains, Nat.le_refl _, Nat.le_add_right _ _, nofun,
      [], [], rfl, rfl, nofun, nofun⟩

/-- Every poll keeps the books. -/
theorem Advances.booked {first : Ring} {m m' : Moment ρ ω} (h : Advances rd wr options m m')
    (hsized : m.Sized) (hcapacity : m.state.ring.capacity = first.capacity)
    (hm : m.Booked first options) : m'.Booked first options := by
  cases h with
  | readerWaits => exact hm
  | @readsOn s total a later h =>
    have hread := (hm.resolve_left id).read h.room h.acknowledged h.length_delivered
    rw [← State.calls_afterRead s a later] at hread
    exact .inr hread
  | @fills s total a later h hstep hsome =>
    have hread := (hm.resolve_left id).read h.room h.acknowledged h.length_delivered
    rw [← State.calls_afterRead s a later] at hread
    -- The fill has staged just what is in the ring.
    have hle : total + a.moved ≤ first.capacity := by
      have htotal : s.ring.size = total := hsized.1
      rw [← htotal, ← h.size, ← hcapacity, ← h.capacity]
      exact a.ring.size_le_capacity
    exact .inr (hread.countFill hsome hle)
  | @endsStream s a later h hdone hnone =>
    have hread := (hm.resolve_left id).read h.room h.acknowledged h.length_delivered
    rw [← State.calls_afterRead s a later, hnone] at hread
    exact .inr hread.endStream
  | readFails => exact .inl trivial
  | writerWaits => exact hm
  | @writesOn s pending total a later h hmore =>
    have haccepted := h.accepted (by simp [hmore])
    have hwrite := (hm.resolve_left id).write haccepted h.delivered h.length_acknowledged
    rw [← State.calls_afterWrite s a later] at hwrite
    exact .inr hwrite
  | @drainsAgain s pending total a later h hdone =>
    have haccepted := h.accepted (by simp [hdone])
    have hwrite := (hm.resolve_left id).write haccepted h.delivered h.length_acknowledged
    rw [← State.calls_afterWrite s a later] at hwrite
    exact .inr hwrite.countTaken
  | @empties s pending total a later h hmore =>
    have haccepted := h.accepted (by simp [hmore])
    have hempty := (hm.resolve_left id).empty haccepted h.delivered h.length_acknowledged
    rw [← State.calls_afterWrite s a later] at hempty
    exact .inr hempty
  | stalls => exact .inl trivial
  | writeFails => exact .inl trivial
  | flushWaits => exact hm
  | @flushes s later =>
    have hflush := (hm.resolve_left id).flush
    rw [← State.calls_afterFlush s (.ok ()) later] at hflush
    exact .inr hflush
  | @finishes s later =>
    have hfinish := (hm.resolve_left id).finish
    rw [← State.calls_afterFlush s (.ok ()) later] at hfinish
    exact .inr hfinish
  | flushFails => exact .inl trivial
  | stays => exact hm

theorem booked_moments (rd : RawReader ρ) (wr : RawWriter ω) (options : RelayOptions)
    (ring : Ring) (source : ρ) (sink : ω) (n : Nat) :
    (moments rd wr options ring source sink n).Booked ring options :=
  moments_induction (booked_first options ring source sink)
    (fun hsized hsound hm h => h.booked hsized hsound.balanced.capacity hm) n

/-! ## How large the counts become -/

/-- No count is above the number of bytes there were: those in the ring at the start, and those that
    were delivered. -/
structure Covered (first : Ring) (calls : List Call) (stats : RelayStats) : Prop where
  bytesIn_le : stats.bytesIn ≤ first.size + (delivered calls).length
  bytesOut_le : stats.bytesOut ≤ (acknowledged calls).length
  fills_le : first.size + stats.fills ≤ stats.bytesIn
  drains_le : stats.drains ≤ stats.bytesIn

theorem Books.covered {first : Ring} {stats : RelayStats} {calls : List Call} {stage : Stage}
    (h : Books first options stats calls stage) : Covered first calls stats where
  bytesIn_le := Nat.le.intro h.bytesIn
  bytesOut_le := Nat.le.intro h.bytesOut
  fills_le := h.fills_le
  drains_le := by
    have hdrains := h.drains
    have hfills := h.fills_le
    split at hdrains <;> omega

/-- A call that is not counted any more only adds to what was delivered and acknowledged. -/
theorem Covered.concat {first : Ring} {stats : RelayStats} {calls : List Call}
    (h : Covered first calls stats) (call : Call) : Covered first (calls ++ [call]) stats where
  bytesIn_le := by
    rw [length_delivered_concat, ← Nat.add_assoc]
    exact Nat.le_add_right_of_le h.bytesIn_le
  bytesOut_le := by
    rw [length_acknowledged_concat]
    exact Nat.le_add_right_of_le h.bytesOut_le
  fills_le := h.fills_le
  drains_le := h.drains_le

/-- Every poll keeps the counts below the bytes, also one by which the relay fails. -/
theorem Advances.covered {first : Ring} {m m' : Moment ρ ω} (h : Advances rd wr options m m')
    (hbooked : m'.Booked first options)
    (hm : Covered first m.state.calls.toList m.state.stats) :
    Covered first m'.state.calls.toList m'.state.stats := by
  cases hbooked with
  | inr hbooks => exact hbooks.covered
  | inl hfailed =>
    -- A relay that fails by a call has not counted it, and afterwards it counts nothing.
    cases h with
    | @readFails s total a later =>
      show Covered first (s.afterRead a later).calls.toList s.stats
      rw [State.calls_afterRead]
      exact hm.concat a.call
    | @stalls s pending a later =>
      show Covered first (s.afterWrite a later).calls.toList s.stats
      rw [State.calls_afterWrite]
      exact hm.concat a.call
    | @writeFails s pending total a later =>
      show Covered first (s.afterWrite a later).calls.toList s.stats
      rw [State.calls_afterWrite]
      exact hm.concat a.call
    | @flushFails s stage cause later =>
      show Covered first (s.afterFlush (.error cause) later).calls.toList s.stats
      rw [State.calls_afterFlush]
      exact hm.concat _
    | stays => exact hm
    | flushWaits => exact hm
    | empties =>
      unfold Stage.behindDrain at hfailed
      split at hfailed <;> exact hfailed.elim
    | _ => exact hfailed.elim

theorem covered_first (ring : Ring) (source : ρ) (sink : ω) :
    Covered ring (enterDrain (initial ring source sink)).state.calls.toList
      (enterDrain (initial ring source sink)).state.stats := by
  have hinitial : Covered ring [] ⟨ring.size, 0, 0, 0⟩ :=
    ⟨Nat.le_refl _, Nat.le_refl _, Nat.le_refl _, Nat.zero_le _⟩
  unfold enterDrain
  split
  · next hempty =>
    rw [enterFill_of_empty hempty]
    exact hinitial
  · exact hinitial

theorem covered_moments (rd : RawReader ρ) (wr : RawWriter ω) (options : RelayOptions)
    (ring : Ring) (source : ρ) (sink : ω) (n : Nat) :
    Covered ring (moments rd wr options ring source sink n).state.calls.toList
      (moments rd wr options ring source sink n).state.stats := by
  induction n with
  | zero => exact covered_first ring source sink
  | succ n ih =>
    have hsized := sized_moments rd wr options ring source sink n
    have hbooked := booked_moments rd wr options ring source sink (n + 1)
    exact (advances_advance rd wr options hsized).covered hbooked ih

/-- All four counts are below a limit of the bytes there were, however the relay ended. So a machine
    word holds them if it holds the number of the bytes. -/
theorem Returned.counts_lt (r : Returned) {limit : Nat}
    (h : r.ring.size + (delivered r.calls).length < limit) :
    r.state.stats.bytesIn < limit ∧ r.state.stats.bytesOut < limit ∧
      r.state.stats.fills < limit ∧ r.state.stats.drains < limit := by
  obtain ⟨n, hn⟩ := r.exists_moments
  have hcovered := covered_moments r.rd.raw r.wr.raw r.options r.ring r.source r.sink n
  rw [hn] at hcovered
  have hin : r.state.stats.bytesIn ≤ r.ring.size + (delivered r.calls).length :=
    hcovered.bytesIn_le
  have hout : r.state.stats.bytesOut ≤ (acknowledged r.calls).length := hcovered.bytesOut_le
  have hfills := hcovered.fills_le
  have hdrains := hcovered.drains_le
  have hlength := congrArg List.length r.balanced.conserves
  simp only [List.length_append, Ring.length_contents] at hlength
  dsimp only at hfills hdrains
  omega

/-! ## Relays that ended well -/

/-- The counts and the calls of a relay that ended well. -/
structure Accounted (first : Ring) (options : RelayOptions) (calls : List Call)
    (stats : RelayStats) : Prop where
  bytesIn_eq : stats.bytesIn = first.contents.length + (delivered calls).length
  bytesOut_eq : stats.bytesOut = stats.bytesIn
  acknowledged_eq : (acknowledged calls).length = stats.bytesOut
  drains_eq : stats.drains = stats.fills + if first.contents = [] then 0 else 1
  bytesIn_le : stats.bytesIn - first.contents.length ≤ stats.fills * first.capacity
  /-- No count is above the number of bytes. -/
  counts_le : stats.fills ≤ stats.drains ∧ stats.drains ≤ stats.bytesIn
  /-- The writer was called for one drain after another, and then for a last flush. -/
  writer : ∃ blocks : List (List Call), blocks.length = stats.drains ∧
    (∀ block ∈ blocks, Drain options block) ∧
    writerCalls calls = blocks.flatten ++ [.flush (.ok ())]
  flushes : calls.filter Call.isFlush =
    List.replicate (flushCount options stats.drains) (.flush (.ok ()))
  /-- Whatever was taken over was so before the last flush. -/
  last : ∃ before, calls = before ++ [.flush (.ok ())]

theorem accounted_moments (rd : RawReader ρ) (wr : RawWriter ω) (options : RelayOptions)
    (ring : Ring) (source : ρ) (sink : ω) {n : Nat} {s : State ρ ω} {stats : RelayStats}
    (hn : moments rd wr options ring source sink n = ⟨s, .ended (.ok stats)⟩) :
    Accounted ring options s.calls.toList stats := by
  have hbooked := booked_moments rd wr options ring source sink n
  have hsized := sized_moments rd wr options ring source sink n
  have hconserves := (sound_moments rd wr options ring source sink n).balanced.conserves
  have hends := follows_moments rd wr options ring source sink n
  rw [hn] at hbooked hsized hconserves hends
  have hbooks := hbooked.resolve_left id
  obtain rfl : stats = s.stats := hbooks.result stats rfl
  have hempty : s.ring.size = 0 := hsized
  have hin : s.stats.bytesIn = ring.size + (delivered s.calls.toList).length := hbooks.bytesIn
  have hout : s.stats.bytesOut = (acknowledged s.calls.toList).length := hbooks.bytesOut
  have hdrains : s.stats.drains = s.stats.fills + if ring.size = 0 then 0 else 1 := hbooks.drains
  have hfills : ring.size + s.stats.fills ≤ s.stats.bytesIn := hbooks.fills_le
  have hle : s.stats.bytesIn ≤ ring.size + s.stats.fills * ring.capacity := hbooks.bytesIn_le
  have hlength := congrArg List.length hconserves
  simp only [List.length_append, Ring.length_contents, hempty, Nat.add_zero] at hlength
  obtain ⟨blocks, rest, hcalls, hcount, hblocks, rfl⟩ := hbooks.blocks
  refine ⟨?_, ?_, hout.symm, ?_, ?_, ?_, ⟨blocks, hcount, hblocks, hcalls⟩, ?_, ?_⟩
  · rw [Ring.length_contents, hin]
  · omega
  · simp only [hdrains, Ring.contents_eq_nil_iff]
  · rw [Ring.length_contents]
    omega
  · split at hdrains <;> omega
  · rw [← filter_isFlush_writerCalls, hcalls, filter_isFlush_flatten hblocks]
    exact congrArg (fun drains => List.replicate (flushCount options drains) _) hcount
  · obtain ⟨before, hbefore, _⟩ := hends
    exact ⟨before, hbefore⟩

/-- When a relay ends well its counts are right, and its writer was called for one drain after another
    and then flushed once more. -/
theorem accounted_of_ok (rd : RawReader ρ) (wr : RawWriter ω) (options : RelayOptions)
    (ring : Ring) (source : ρ) (sink : ω) :
    (∀ n (s : State ρ ω) stats,
        moments rd wr options ring source sink n = ⟨s, .ended (.ok stats)⟩ →
        Accounted ring options s.calls.toList stats) ∧
      ∀ (r : Returned) stats, r.result = .ok stats → Accounted r.ring r.options r.calls stats := by
  constructor
  · intro n s stats hn
    exact accounted_moments rd wr options ring source sink hn
  · intro r stats hok
    obtain ⟨n, hn⟩ := r.exists_moments
    rw [hok] at hn
    exact accounted_moments r.rd.raw r.wr.raw r.options r.ring r.source r.sink hn

/-- A relay through a ring whose bytes go around the end of the array, to a writer that takes nothing
    in the second write of the first drain and is not ready for the next one. -/
theorem accounted_of_ok_aroundEnd :
    ∃ s, moments ReadScript.waitingReader.raw WriteScript.waitingWriter.raw {} .aroundEnd
          [.data [3, 4, 5, 6]] ⟨[.accept 1, .accept 0, .notReady], none, []⟩ 15 =
        ⟨s, .ended (.ok ⟨6, 6, 2, 3⟩)⟩ ∧
      Accounted .aroundEnd {} s.calls.toList ⟨6, 6, 2, 3⟩ := by
  obtain ⟨haccounted, _⟩ := accounted_of_ok ReadScript.waitingReader.raw
    WriteScript.waitingWriter.raw {} .aroundEnd [.data [3, 4, 5, 6]]
    ⟨[.accept 1, .accept 0, .notReady], none, []⟩
  exact ⟨_, rfl, haccounted 15 _ _ rfl⟩

end Relay

end RingRelay
