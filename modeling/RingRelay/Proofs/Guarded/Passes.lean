import Mathlib.Logic.Relation
import RingRelay.Proofs.Guarded.Word
/- Loops that need not come to an end, by the passes that they make.

   `Guarded.loop_of_next` and `Guarded.loop_of_result` unwind a loop that ends. A loop whose endpoint
   is never ready has no result, and what holds of it is said of the states between its passes
   (`Guarded.Visits`). A loop ends as the last of its passes does (`loop_run_iff`), so two loops whose
   passes agree on these states are the same, ended or not, and a loop none of whose passes breaks
   down does not break down. -/
namespace RingRelay.Guarded

variable {σ α : Type} {pass pass' : σ → Guarded (α ⊕ σ)} {s u : σ}

theorem pure_inj {x y : α} (h : (pure x : Guarded α) = pure y) : x = y :=
  Except.ok.inj (Part.some_inj.mp h)

/-- A loop that begins with `s` has `u` at hand between two of its passes, or before the first. -/
def Visits (pass : σ → Guarded (α ⊕ σ)) : σ → σ → Prop :=
  Relation.ReflTransGen fun s next => pass s = pure (.inr next)

/-- What a pass keeps holds of every state that the loop visits. -/
theorem Visits.invariant {p : σ → Prop} (h : Visits pass s u) (hs : p s)
    (hpass : ∀ {s next}, p s → pass s = pure (.inr next) → p next) : p u := by
  induction h with
  | refl => exact hs
  | tail _ hlast ih => exact hpass ih hlast

theorem Visits.loop_eq (h : Visits pass s u) : loop pass s = loop pass u := by
  induction h with
  | refl => rfl
  | tail _ hlast ih => exact ih.trans (loop_of_next hlast)

/-- Passes that agree on what a loop visits visit the same. -/
theorem visits_congr (hpass : ∀ u, Visits pass s u → pass u = pass' u) :
    Visits pass s u ↔ Visits pass' s u := by
  constructor
  · intro h
    induction h with
    | refl => exact .refl
    | tail hbefore hlast ih => exact ih.tail ((hpass _ hbefore).symm.trans hlast)
  · intro h
    induction h with
    | refl => exact .refl
    | tail _ hlast ih => exact ih.tail ((hpass _ ih).trans hlast)

/-- A loop ends with the end of its last pass: by a result of it or by its breakdown. -/
theorem loop_run_iff {outcome : Except Fault α} :
    outcome ∈ (loop pass s).run ↔
      ∃ u, Visits pass s u ∧ (pass u).run = Part.some (outcome.map .inl) := by
  constructor
  · intro h
    refine PFun.fixInduction h fun s hs ih => ?_
    rcases PFun.mem_fix_iff.mp hs with hstop | ⟨next, hnext, _⟩
    · obtain ⟨answer, hanswer, hcase⟩ := (Part.mem_map_iff _).mp hstop
      refine ⟨s, .refl, (Part.eq_some_iff.mpr hanswer).trans (congrArg Part.some ?_)⟩
      rcases answer with fault | (result | next)
      · exact congrArg (Except.map Sum.inl) (Sum.inl.inj hcase)
      · exact congrArg (Except.map Sum.inl) (Sum.inl.inj hcase)
      · cases hcase
    · obtain ⟨u, hvisits, hend⟩ := ih next hnext
      refine ⟨u, hvisits.head ?_, hend⟩
      obtain ⟨answer, hanswer, hcase⟩ := (Part.mem_map_iff _).mp hnext
      rcases answer with fault | (result | after)
      · cases hcase
      · cases hcase
      · cases hcase
        exact Part.eq_some_iff.mpr hanswer
  · rintro ⟨u, hvisits, hend⟩
    rw [hvisits.loop_eq]
    refine PFun.fix_stop ?_
    rw [hend, Part.map_some]
    cases outcome with
    | ok result => exact Part.mem_some _
    | error fault => exact Part.mem_some _

/-- Passes that agree on what a loop visits make the same loop, whether or not it ends. -/
theorem loop_congr (hpass : ∀ u, Visits pass s u → pass u = pass' u) :
    loop pass s = loop pass' s := by
  refine Part.ext fun outcome => loop_run_iff.trans (Iff.trans ?_ loop_run_iff.symm)
  constructor
  · rintro ⟨u, hvisits, hend⟩
    exact ⟨u, (visits_congr hpass).mp hvisits, hpass u hvisits ▸ hend⟩
  · rintro ⟨u, hvisits, hend⟩
    have hback : Visits pass s u := (visits_congr hpass).mpr hvisits
    exact ⟨u, hback, hpass u hback ▸ hend⟩

/-- A loop breaks down only in one of its passes. -/
theorem loop_ne_throw (hpass : ∀ u, Visits pass s u → ∃ step, pass u = pure step) (fault : Fault) :
    loop pass s ≠ throw fault := by
  intro h
  have hmem : .error fault ∈ (loop pass s).run := by
    rw [h]
    exact Part.mem_some _
  obtain ⟨u, hvisits, hend⟩ := loop_run_iff.mp hmem
  obtain ⟨step, hstep⟩ := hpass u hvisits
  rw [hstep] at hend
  cases Part.some_inj.mp hend

end RingRelay.Guarded
