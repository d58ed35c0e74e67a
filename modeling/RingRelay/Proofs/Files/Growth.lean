import RingRelay.Files.Tree
import Mathlib.Tactic.Common
/- Trees that only grow.

   A tree grows into another if everything that was there is still there as it was (`Grows`). What
   is found in a tree is found in every tree that it grows into. Making directories lets a tree grow
   by directories alone, also if the way is barred in the end. -/
namespace RingRelay

namespace FileTree

variable {tree before after : FileTree} {place other : Place} {entry : Entry}

/-! ## One entry -/

theorem lookup_filter_ne (entries : List (Place × Entry)) (h : other ≠ place) :
    (entries.filter fun e => e.1 != place).lookup other = entries.lookup other := by
  induction entries with
  | nil => rfl
  | cons e entries ih =>
    obtain ⟨name, value⟩ := e
    by_cases hname : name = place
    · subst hname
      rw [List.filter_cons_of_neg (by simp), ih, List.lookup_cons, beq_eq_false_iff_ne.mpr h]
    · rw [List.filter_cons_of_pos (by simpa using hname), List.lookup_cons, List.lookup_cons, ih]

theorem get?_put_self (h : place ≠ []) : (tree.put place entry).get? place = some entry := by
  simp [get?, put, h]

theorem get?_put_of_ne (h : other ≠ place) :
    (tree.put place entry).get? other = tree.get? other := by
  unfold get? put
  rw [List.lookup_cons, beq_eq_false_iff_ne.mpr h, lookup_filter_ne _ h]

theorem ne_nil_of_get?_eq_none (h : tree.get? place = none) : place ≠ [] := by
  rintro rfl
  cases h

/-- Where an entry is, putting it again changes nothing. -/
theorem get?_put_of_get? (h : tree.get? place = some entry) :
    (tree.put place entry).get? other = tree.get? other := by
  by_cases hother : other = place
  · subst hother
    by_cases hroot : other = []
    · subst hroot
      rfl
    · rw [get?_put_self hroot, h]
  · exact get?_put_of_ne hother

/-- A path leads to an entry if it can be walked and the entry is at its end. -/
theorem find_eq_ok_iff {path : Path} : tree.find path = .ok (place, entry) ↔
    checkPath path = .ok () ∧ tree.walk (tree.origin path) (Path.pieces path) = .ok place ∧
      tree.get? place = some entry := by
  unfold find
  cases checkPath path with
  | error error => simp [bind, Except.bind]
  | ok =>
    cases tree.walk (tree.origin path) (Path.pieces path) with
    | error refusal => simp [refused, bind, Except.bind]
    | ok stop =>
      cases hget : tree.get? stop with
      | none =>
        simp only [refused, bind, Except.bind, hget, reduceCtorEq, true_and, false_iff, not_and]
        rintro ⟨⟩
        simp [hget]
      | some entry' =>
        simp only [refused, bind, Except.bind, hget, pure, Except.pure, Except.ok.injEq,
          Prod.mk.injEq, true_and]
        constructor
        · rintro ⟨rfl, rfl⟩
          exact ⟨rfl, hget⟩
        · rintro ⟨rfl, hget'⟩
          exact ⟨rfl, Option.some.inj (hget.symm.trans hget')⟩

/-- An entry can be opened to be read if a path leads to it and it is not barred. -/
theorem openToRead_eq_ok_iff {path : Path} : tree.openToRead path = .ok place ↔
    ∃ entry, tree.find path = .ok (place, entry) ∧ ∀ cause, entry ≠ .barred cause := by
  unfold openToRead
  cases tree.find path with
  | error error => simp [bind, Except.bind]
  | ok found =>
    obtain ⟨stop, entry⟩ := found
    cases entry <;> simp [bind, Except.bind, pure, Except.pure]

/-! ## Growth -/

/-- All that was there is there as it was, and what is where nothing was is new by `new`. -/
structure Grows (new : Place → Entry → Prop) (before after : FileTree) : Prop where
  workingDirectory : after.workingDirectory = before.workingDirectory
  kept : ∀ {place entry}, before.get? place = some entry → after.get? place = some entry
  added : ∀ {place entry}, before.get? place = none → after.get? place = some entry →
    new place entry

variable {new : Place → Entry → Prop}

namespace Grows

theorem refl (tree : FileTree) : Grows new tree tree where
  workingDirectory := rfl
  kept h := h
  added hnone hsome := by simp [hnone] at hsome

theorem trans {middle : FileTree} (h₁ : Grows new before middle) (h₂ : Grows new middle after) :
    Grows new before after where
  workingDirectory := h₂.workingDirectory.trans h₁.workingDirectory
  kept h := h₂.kept (h₁.kept h)
  added {place entry} hnone hsome := by
    cases hmiddle : middle.get? place with
    | none => exact h₂.added hmiddle hsome
    | some entry' =>
      obtain rfl := Option.some.inj ((h₂.kept hmiddle).symm.trans hsome)
      exact h₁.added hnone hmiddle

theorem mono {new' : Place → Entry → Prop} (h : Grows new before after)
    (himp : ∀ place entry, new place entry → new' place entry) : Grows new' before after where
  workingDirectory := h.workingDirectory
  kept := h.kept
  added hnone hsome := himp _ _ (h.added hnone hsome)

/-- What is new is there afterwards. -/
theorem new_and_get? (h : Grows new before after) :
    Grows (fun place entry => new place entry ∧ after.get? place = some entry) before after where
  workingDirectory := h.workingDirectory
  kept := h.kept
  added hnone hsome := ⟨h.added hnone hsome, hsome⟩

/-- What there is afterwards was there before, or it is new where nothing was. -/
theorem old_or_new (h : Grows new before after) (hsome : after.get? place = some entry) :
    before.get? place = some entry ∨ before.get? place = none ∧ new place entry := by
  cases hbefore : before.get? place with
  | none => exact .inr ⟨rfl, h.added hbefore hsome⟩
  | some entry' =>
    obtain rfl := Option.some.inj ((h.kept hbefore).symm.trans hsome)
    exact .inl rfl

/-- An entry where nothing was. -/
theorem put (hnone : tree.get? place = none) (hnew : new place entry) :
    Grows new tree (tree.put place entry) where
  workingDirectory := rfl
  kept {other _} h := by
    rwa [get?_put_of_ne]
    rintro rfl
    simp [hnone] at h
  added {other _} hnone' hsome := by
    by_cases hother : other = place
    · subst hother
      rw [get?_put_self (ne_nil_of_get?_eq_none hnone)] at hsome
      exact Option.some.inj hsome ▸ hnew
    · rw [get?_put_of_ne hother, hnone'] at hsome
      cases hsome

/-- An entry put where it was already. -/
theorem put_again (h : tree.get? place = some entry) : Grows new tree (tree.put place entry) where
  workingDirectory := rfl
  kept h' := by rwa [get?_put_of_get? h]
  added hnone hsome := by
    rw [get?_put_of_get? h, hnone] at hsome
    cases hsome

theorem touch (hnew : new place (.file [])) : Grows new tree (tree.touch place) := by
  unfold FileTree.touch
  split
  · next hnone => exact .put hnone hnew
  · exact .refl tree

/-- Nothing written behind the end of a file. -/
theorem append_nil (tree : FileTree) (place : Place) : Grows new tree (tree.append place []) := by
  unfold FileTree.append
  split
  · next content h => exact .put_again (by rwa [List.append_nil])
  · exact .refl tree

/-! ## What is found stays found -/

theorem walk_eq (h : Grows new before after) {start stop : Place} {names : List FileName}
    (hwalk : before.walk start names = .ok stop) : after.walk start names = .ok stop := by
  induction names generalizing start with
  | nil => exact hwalk
  | cons name names ih =>
    unfold FileTree.walk at hwalk ⊢
    split at hwalk
    · cases hwalk
    · next hdirectory =>
      -- Names are looked up in a directory, and it still is one.
      rw [h.kept hdirectory]
      dsimp only
      split_ifs at hwalk ⊢
      · exact ih hwalk
      · exact ih hwalk
      · exact ih hwalk
    · cases hwalk

theorem origin_eq (h : Grows new before after) (path : Path) :
    after.origin path = before.origin path := by
  unfold FileTree.origin
  rw [h.workingDirectory]

theorem find_eq (h : Grows new before after) {path : Path}
    (hfind : before.find path = .ok (place, entry)) : after.find path = .ok (place, entry) := by
  obtain ⟨hpath, hwalk, hget⟩ := find_eq_ok_iff.mp hfind
  exact find_eq_ok_iff.mpr ⟨hpath, by rw [h.origin_eq, h.walk_eq hwalk], h.kept hget⟩

end Grows

/-! ## Making directories -/

theorem grows_makeAll (tree : FileTree) (fresh : Bool) (place : Place) (names : List FileName) :
    Grows (fun _ entry => entry = .directory) tree (tree.makeAll fresh place names).1 := by
  induction names generalizing tree fresh place with
  | nil => exact .refl tree
  | cons name names ih =>
    unfold makeAll
    split
    · exact ih ..
    · split
      · exact .refl tree
      · split
        · next hnone => exact (Grows.put hnone rfl).trans (ih ..)
        · exact ih ..
        · exact .refl tree

theorem grows_makeDirectories (tree : FileTree) (path : Path) :
    Grows (fun _ entry => entry = .directory) tree (tree.makeDirectories path).1 := by
  unfold makeDirectories
  split
  · exact .refl tree
  · split
    · split
      · have hgrows := grows_makeAll tree false (tree.origin path) (names path).dropLast
        split
        · next h => rwa [h] at hgrows
        · next h => rwa [h] at hgrows
      · exact .refl tree
    · exact grows_makeAll ..

end FileTree

end RingRelay
