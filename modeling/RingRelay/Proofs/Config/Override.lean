import RingRelay.Proofs.Config.Precedence
import Mathlib.Data.List.DropRight
/- What the environment does to settings that are changed where they are.

   The settings of a running program are in one place, and two variables override them there, one
   after the other. What the first has changed stays changed if the second fails. But only the first
   can fail, and it fails before it changes anything, so the settings are overridden altogether or
   not at all (`override_contract`). -/
namespace RingRelay

/-- Nothing is left of a text without the blanks at its ends exactly if it is all blanks. -/
theorem Text.trimChars_eq_nil_iff {cs : List Char} :
    trimChars cs = [] ↔ ∀ c ∈ cs, isBlankChar c := by
  calc trimChars cs = []
    _ ↔ (cs.dropWhile isBlankChar).rdropWhile isBlankChar = [] := Iff.rfl
    _ ↔ (cs.dropWhile isBlankChar).dropWhile isBlankChar = [] := by
      rw [List.rdropWhile_eq_nil_iff, List.dropWhile_eq_nil_iff]
    _ ↔ ∀ c ∈ cs, isBlankChar c := by
      rw [List.dropWhile_idempotent, List.dropWhile_eq_nil_iff]

namespace Config

/-! ## Overriding in place -/

/-- Sets a setting to what a variable tells, if it tells something. -/
def override {α : Type} (told : Option String) (read : String → Except ConfigError α)
    (set : α → Settings → Settings) : EStateM ConfigError Settings Unit :=
  match told with
  | none => pure ()
  | some text => do
    let value ← MonadExcept.ofExcept (read text)
    modify (set value)

/-- The capacity that a text writes between blanks. -/
def readCapacity (text : String) : Except ConfigError Nat :=
  match Text.readSize (Text.trimChars text.toList) with
  | .ok capacity => .ok capacity
  | .error fault => .error (.badCapacity text fault)

/-- Overrides the capacity and then the level. -/
def overrideAll (env : Environment) : EStateM ConfigError Settings Unit := do
  override (Environment.telling? env.capacity) readCapacity
    fun capacity settings => { settings with buffer := { capacity } }
  override (Environment.telling? env.logLevel) .ok
    fun level settings => { settings with logging := { settings.logging with level } }

variable {env : Environment} {before after : Settings} {error : ConfigError}

/-- The settings come to the same as those that are made anew, and a failure leaves those from
    before. -/
theorem overrideAll_eq (env : Environment) (before : Settings) :
    (overrideAll env).run before =
      match applyEnvironment env before with
      | .ok after => .ok () after
      | .error error => .error error before := by
  unfold overrideAll applyEnvironment override readCapacity
  cases Environment.telling? env.capacity with
  | none => cases Environment.telling? env.logLevel <;> rfl
  | some text =>
    dsimp only
    cases Text.readSize (Text.trimChars text.toList) with
    | error fault => rfl
    | ok capacity => cases Environment.telling? env.logLevel <;> rfl

theorem overrideAll_eq_ok_iff :
    (overrideAll env).run before = .ok () after ↔ applyEnvironment env before = .ok after := by
  rw [overrideAll_eq]
  cases applyEnvironment env before <;> simp

theorem overrideAll_eq_error_iff : (overrideAll env).run before = .error error after ↔
    applyEnvironment env before = .error error ∧ after = before := by
  rw [overrideAll_eq]
  cases applyEnvironment env before <;> simp [eq_comm]

end Config

/-! ## What the variables say -/

namespace Environment

/-- What the variables make of settings: the capacity and the level are those that they give, or as
    they were, and all others are as they were. -/
structure Overrides (env : Environment) (before after : Settings) : Prop where
  capacity : ∃ given, Given env.capacity
    (fun text n => Text.Writes (Text.trimChars text.toList) n ∧ n ≤ Text.maxSize) given ∧
      after.buffer.capacity = given.getD before.buffer.capacity
  level : ∃ given, Given env.logLevel (fun text level => level = text) given ∧
    after.logging.level = given.getD before.logging.level
  others : after = { before with
    buffer := { capacity := after.buffer.capacity }
    logging := { before.logging with level := after.logging.level } }

/-- Why the variable of the capacity cannot be used: where reading the text without the blanks at its
    ends breaks off. The error has the text with them. -/
inductive Misleads (env : Environment) : ConfigError → Prop
  | badCapacity {text : String} {fault : Text.NumberFault} (tells : Tells env.capacity text)
      (breaks : Text.BreaksOff Text.maxSize 0 (Text.unsigned (Text.trimChars text.toList)) fault) :
      Misleads env (.badCapacity text fault)

variable {env : Environment} {before after : Settings} {error : ConfigError} {text : String}

theorem applyEnvironment_eq_ok_iff_overrides :
    Config.applyEnvironment env before = .ok after ↔ env.Overrides before after := by
  rw [applyEnvironment_capacity]
  constructor
  · rintro ⟨_, hcapacity, rfl⟩
    exact ⟨hcapacity, level_eq_iff.mp rfl, rfl⟩
  · intro h
    refine ⟨_, h.capacity, ?_⟩
    rw [← level_eq_iff.mpr h.level]
    exact h.others.symm

/-- Overriding once more changes nothing. -/
theorem Overrides.again (h : env.Overrides before after) : env.Overrides after after := by
  have hgiven {α : Type} {given : Option α} {lower upper : α} (hupper : upper = given.getD lower) :
      upper = given.getD upper := by
    cases given with
    | none => rfl
    | some a => exact hupper
  obtain ⟨capacity, hcapacity, hcapacity_eq⟩ := h.capacity
  obtain ⟨level, hlevel, hlevel_eq⟩ := h.level
  exact ⟨⟨capacity, hcapacity, hgiven hcapacity_eq⟩, ⟨level, hlevel, hgiven hlevel_eq⟩, rfl⟩

/-- A text that is told has something to read in it. -/
theorem trimChars_ne_nil_of_tells {value : Option Bytes} (h : Tells value text) :
    Text.trimChars text.toList ≠ [] := by
  obtain ⟨-, c, hmem, hc⟩ := h
  intro hnil
  exact hc (Text.trimChars_eq_nil_iff.mp hnil c hmem)

theorem applyEnvironment_eq_error_iff :
    Config.applyEnvironment env before = .error error ↔ env.Misleads error := by
  unfold Config.applyEnvironment
  cases htold : telling? env.capacity with
  | none =>
    refine iff_of_false nofun ?_
    intro h
    cases h with
    | badCapacity tells => exact telling?_eq_none_iff.mp htold _ tells
  | some text =>
    have htells := telling?_eq_some_iff.mp htold
    have hread_iff (fault : Text.NumberFault) :
        Text.readSize (Text.trimChars text.toList) = .error fault ↔
          Text.BreaksOff Text.maxSize 0 (Text.unsigned (Text.trimChars text.toList)) fault := by
      simp [Text.readSize, Text.readNumber_eq_error_iff, trimChars_ne_nil_of_tells htells]
    dsimp only
    cases hread : Text.readSize (Text.trimChars text.toList) with
    | error fault =>
      constructor
      · intro h
        obtain rfl := Except.error.inj h
        exact .badCapacity htells ((hread_iff fault).mp hread)
      · intro h
        cases h with
        | badCapacity tells breaks =>
          obtain rfl := Option.some.inj (htold.symm.trans (telling?_eq_some_iff.mpr tells))
          obtain rfl := Except.error.inj (hread.symm.trans ((hread_iff _).mpr breaks))
          rfl
    | ok capacity =>
      refine iff_of_false nofun ?_
      intro h
      cases h with
      | badCapacity tells breaks =>
        obtain rfl := Option.some.inj (htold.symm.trans (telling?_eq_some_iff.mpr tells))
        exact nomatch hread.symm.trans ((hread_iff _).mpr breaks)

/-- The variables cannot be used exactly if that of the capacity tells a text that writes no number
    within the largest size between its blanks. -/
theorem exists_misleads_iff : (∃ error, env.Misleads error) ↔
    ∃ text, Tells env.capacity text ∧
      ¬ ∃ n, Text.Writes (Text.trimChars text.toList) n ∧ n ≤ Text.maxSize := by
  have hread_iff (text : String) :
      (∃ n, Text.readSize (Text.trimChars text.toList) = .ok n) ↔
        ∃ n, Text.Writes (Text.trimChars text.toList) n ∧ n ≤ Text.maxSize :=
    exists_congr fun n => Text.readSize_eq_ok_iff
  constructor
  · rintro ⟨_, ⟨tells, breaks⟩⟩
    refine ⟨_, tells, ?_⟩
    rw [← hread_iff]
    rintro ⟨n, hread⟩
    exact nomatch hread.symm.trans (Text.readNumber_eq_error_iff.mpr (.inr breaks))
  · rintro ⟨text, htells, hnumber⟩
    rw [← hread_iff] at hnumber
    cases hread : Text.readSize (Text.trimChars text.toList) with
    | ok n => exact absurd ⟨n, hread⟩ hnumber
    | error fault =>
      obtain ⟨hnil, -⟩ | hbreaks := Text.readNumber_eq_error_iff.mp hread
      · exact absurd hnil (trimChars_ne_nil_of_tells htells)
      · exact ⟨_, .badCapacity htells hbreaks⟩

end Environment

namespace Config

/-- Overriding in place fails exactly if the variable of the capacity tells a text that writes no
    number below 2 ^ 64 between its blanks. The error then has the whole text and the first thing
    that is wrong in the number, and the settings are as they were, also if the other variable has
    something to tell. Else the capacity and the level are those that the variables give or those
    from before, all other settings are as they were, and doing it once more changes nothing. In
    either case the settings made anew by `applyEnvironment` are the same. -/
theorem override_contract (env : Environment) (before : Settings) :
    ((∃ error after, (overrideAll env).run before = .error error after) ↔
      ∃ text, Environment.Tells env.capacity text ∧
        ¬ ∃ n, Text.Writes (Text.trimChars text.toList) n ∧ n ≤ Text.maxSize) ∧
    (∀ error after, (overrideAll env).run before = .error error after ↔
      env.Misleads error ∧ after = before) ∧
    (∀ text fault, (ConfigError.badCapacity text fault).message =
        "invalid BYTERING_CAPACITY: " ++ text ∧
      (ConfigError.badCapacity text fault).causes = [fault.message]) ∧
    (∀ after, (overrideAll env).run before = .ok () after ↔ env.Overrides before after) ∧
    (∀ after, (overrideAll env).run before = .ok () after →
      (overrideAll env).run after = .ok () after) ∧
    (∀ after, applyEnvironment env before = .ok after ↔
      (overrideAll env).run before = .ok () after) ∧
    (∀ error, applyEnvironment env before = .error error ↔
      (overrideAll env).run before = .error error before) := by
  have hok (before after : Settings) :
      (overrideAll env).run before = .ok () after ↔ env.Overrides before after :=
    overrideAll_eq_ok_iff.trans Environment.applyEnvironment_eq_ok_iff_overrides
  have herror (error : ConfigError) (after : Settings) :
      (overrideAll env).run before = .error error after ↔ env.Misleads error ∧ after = before := by
    rw [overrideAll_eq_error_iff, Environment.applyEnvironment_eq_error_iff]
  refine ⟨?_, herror, fun _ _ => ⟨rfl, rfl⟩, hok before, ?_, ?_, ?_⟩
  · rw [← Environment.exists_misleads_iff]
    simp [herror]
  · intro after h
    rw [hok] at h ⊢
    exact h.again
  · intro after
    exact overrideAll_eq_ok_iff.symm
  · intro error
    simp [overrideAll_eq_error_iff]

/-- A capacity with a sign and zeros between blanks, and a level with blanks. -/
def paddedEnvironment : Environment where
  capacity := some (Utf8.encode " +007 ")
  logLevel := some (Utf8.encode " debug ")

/-- The default settings with what is in that environment. -/
def paddedSettings : Settings where
  buffer := { capacity := 7 }
  logging := { level := " debug " }

theorem override_contract_padded :
    (overrideAll paddedEnvironment).run {} = .ok () paddedSettings ∧
      (overrideAll paddedEnvironment).run paddedSettings = .ok () paddedSettings := by
  have hfirst : (overrideAll paddedEnvironment).run {} = .ok () paddedSettings := rfl
  obtain ⟨-, -, -, -, hagain, -, -⟩ := override_contract paddedEnvironment {}
  exact ⟨hfirst, hagain _ hfirst⟩

/-- The number has grown too large before the bad digit is met, and the level stays as it was. -/
example : (overrideAll
    { paddedEnvironment with capacity := some (Utf8.encode " 99999999999999999999x") }).run {} =
      .error (.badCapacity " 99999999999999999999x" .tooLarge) {} := rfl

end Config

end RingRelay
