import RingRelay.Text.Decimal
import Mathlib.Tactic.Common
/- Numerals: the texts that write a number, and that reading a bounded number accepts exactly them.

   The reader looks at one digit after another and stops as soon as the value is above the bound. It
   may stop there, since more digits never make a value smaller. Where it stops without a number,
   `BreaksOff` says why. -/
namespace RingRelay.Text

/-- The characters are at most one plus sign and then digits with the value `n`, at least one. -/
def Writes (cs : List Char) (n : Nat) : Prop :=
  ∃ sign digits, cs = sign ++ digits ∧ (sign = [] ∨ sign = ['+']) ∧ digits ≠ [] ∧
    (∀ c ∈ digits, isDigit c) ∧ digitsValue 10 digits = n

variable {bound value n : Nat} {c : Char} {cs : List Char}

/-- The value of a number of which `value` are the first digits and `cs` the others. -/
def valueFrom (value : Nat) (cs : List Char) : Nat :=
  cs.foldl (fun value c => 10 * value + digitValue c) value

@[simp] theorem valueFrom_nil : valueFrom value [] = value := rfl

@[simp] theorem valueFrom_cons :
    valueFrom value (c :: cs) = valueFrom (10 * value + digitValue c) cs := rfl

theorem le_valueFrom : value ≤ valueFrom value cs := by
  induction cs generalizing value with
  | nil => exact Nat.le_refl _
  | cons c cs ih => exact Nat.le_trans (by omega : value ≤ 10 * value + digitValue c) ih

theorem digitValue?_of_isDigit (h : isDigit c) : digitValue? c = some (digitValue c) := by
  have bounds : '0' ≤ c ∧ c ≤ '9' := by simpa [isDigit] using h
  rw [digitValue?, if_pos bounds, digitValue, if_pos h]

theorem digitValue?_of_not_isDigit (h : ¬ isDigit c) : digitValue? c = none := by
  have bounds : ¬ ('0' ≤ c ∧ c ≤ '9') := by simpa [isDigit] using h
  rw [digitValue?, if_neg bounds]

theorem readDigits_eq_ok_iff (small : value ≤ bound) :
    readDigits bound value cs = .ok n ↔
      (∀ c ∈ cs, isDigit c) ∧ valueFrom value cs = n ∧ n ≤ bound := by
  induction cs generalizing value with
  | nil =>
    simp only [readDigits, Except.ok.injEq, List.not_mem_nil, false_implies, implies_true,
      true_and, valueFrom_nil]
    omega
  | cons c cs ih =>
    by_cases digit : isDigit c
    · simp only [readDigits, digitValue?_of_isDigit digit, List.forall_mem_cons, digit, true_and,
        valueFrom_cons]
      split
      next large =>
        -- The reader gives up here, and no digits behind would bring the value back down.
        have : 10 * value + digitValue c ≤ valueFrom (10 * value + digitValue c) cs := le_valueFrom
        simp only [reduceCtorEq, false_iff, not_and]
        omega
      next => exact ih (by omega)
    · simp [readDigits, digitValue?_of_not_isDigit digit, digit]

/-- Reading gives the number that the characters write, if it is within the bound, and nothing for
    other characters and larger numbers. -/
theorem readNumber_eq_ok_iff : readNumber bound cs = .ok n ↔ Writes cs n ∧ n ≤ bound := by
  have digits_iff (ds : List Char) : readDigits bound 0 ds = .ok n ↔
      (∀ c ∈ ds, isDigit c) ∧ digitsValue 10 ds = n ∧ n ≤ bound :=
    readDigits_eq_ok_iff (Nat.zero_le _)
  constructor
  · intro h
    match cs, h with
    | c :: cs, h =>
      by_cases plus : c = '+'
      · subst plus
        cases cs with
        | nil => cases h
        | cons d ds =>
          obtain ⟨digits, value, small⟩ := (digits_iff _).mp h
          exact ⟨⟨['+'], d :: ds, rfl, .inr rfl, List.cons_ne_nil _ _, digits, value⟩, small⟩
      · rw [readNumber.eq_4 _ _ (by simp) (by simp [plus]) (by simp [plus])] at h
        obtain ⟨digits, value, small⟩ := (digits_iff _).mp h
        exact ⟨⟨[], c :: cs, rfl, .inl rfl, List.cons_ne_nil _ _, digits, value⟩, small⟩
  · rintro ⟨⟨sign, digits, rfl, signed, some, all, value⟩, small⟩
    have read := (digits_iff digits).mpr ⟨all, value, small⟩
    obtain ⟨d, ds, rfl⟩ := List.exists_cons_of_ne_nil some
    rcases signed with rfl | rfl
    · -- A digit is no sign, so all of the text is taken for digits.
      have plus : d ≠ '+' := by
        rintro rfl
        exact absurd (all '+' (List.mem_cons_self ..)) (by decide)
      rw [List.nil_append, readNumber.eq_4 _ _ (by simp) (by simp [plus]) (by simp [plus])]
      exact read
    · exact read

theorem readSize_eq_ok_iff : readSize cs = .ok n ↔ Writes cs n ∧ n ≤ maxSize :=
  readNumber_eq_ok_iff

/-! ## Where reading breaks off -/

/-- The characters without a plus sign in front of something. -/
def unsigned : List Char → List Char
  | '+' :: c :: cs => c :: cs
  | cs => cs

/-- Why reading breaks off behind a number with the value `value`. There are digits that keep the
    value within the bound, and the first character behind them is no digit, or a digit too many. -/
inductive BreaksOff (bound value : Nat) (cs : List Char) : NumberFault → Prop
  | badDigit {digits rest : List Char} {c : Char} (eq : cs = digits ++ c :: rest)
      (all : ∀ d ∈ digits, isDigit d) (small : valueFrom value digits ≤ bound)
      (bad : ¬ isDigit c) : BreaksOff bound value cs .invalidDigit
  | overflow {digits rest : List Char} {c : Char} (eq : cs = digits ++ c :: rest)
      (all : ∀ d ∈ digits, isDigit d) (small : valueFrom value digits ≤ bound) (digit : isDigit c)
      (large : bound < valueFrom value (digits ++ [c])) : BreaksOff bound value cs .tooLarge

variable {fault : NumberFault}

/-- Behind one more digit within the bound it breaks off for the same reason. -/
theorem BreaksOff.cons (h : BreaksOff bound (10 * value + digitValue c) cs fault)
    (hdigit : isDigit c) : BreaksOff bound value (c :: cs) fault := by
  have hall {digits : List Char} (all : ∀ d ∈ digits, isDigit d) : ∀ d ∈ c :: digits, isDigit d :=
    List.forall_mem_cons.mpr ⟨hdigit, all⟩
  cases h with
  | badDigit eq all small bad => exact .badDigit (by rw [eq]; rfl) (hall all) small bad
  | overflow eq all small digit large =>
    exact .overflow (by rw [eq]; rfl) (hall all) small digit large

/-- It breaks off at the first character or behind it. -/
theorem BreaksOff.cases_cons (h : BreaksOff bound value (c :: cs) fault) :
    (¬ isDigit c ∧ fault = .invalidDigit) ∨
    (isDigit c ∧ bound < 10 * value + digitValue c ∧ fault = .tooLarge) ∨
    (isDigit c ∧ 10 * value + digitValue c ≤ bound ∧
      BreaksOff bound (10 * value + digitValue c) cs fault) := by
  cases h with
  | @badDigit digits rest c' eq all small bad =>
    cases digits with
    | nil =>
      obtain ⟨rfl, -⟩ := List.cons.inj eq
      exact .inl ⟨bad, rfl⟩
    | cons d digits =>
      obtain ⟨rfl, htail⟩ := List.cons.inj eq
      obtain ⟨hdigit, hall⟩ := List.forall_mem_cons.mp all
      exact .inr (.inr ⟨hdigit, Nat.le_trans le_valueFrom small, .badDigit htail hall small bad⟩)
  | @overflow digits rest c' eq all small digit large =>
    cases digits with
    | nil =>
      obtain ⟨rfl, -⟩ := List.cons.inj eq
      exact .inr (.inl ⟨digit, large, rfl⟩)
    | cons d digits =>
      obtain ⟨rfl, htail⟩ := List.cons.inj eq
      obtain ⟨hdigit, hall⟩ := List.forall_mem_cons.mp all
      exact .inr (.inr ⟨hdigit, Nat.le_trans le_valueFrom small,
        .overflow htail hall small digit large⟩)

theorem not_breaksOff_nil : ¬ BreaksOff bound value [] fault := by
  intro h
  cases h with
  | badDigit eq => exact absurd eq (by simp)
  | overflow eq => exact absurd eq (by simp)

theorem readDigits_eq_error_iff (hsmall : value ≤ bound) :
    readDigits bound value cs = .error fault ↔ BreaksOff bound value cs fault := by
  induction cs generalizing value with
  | nil => exact iff_of_false nofun not_breaksOff_nil
  | cons c cs ih =>
    have hfirst : c :: cs = [] ++ c :: cs := rfl
    by_cases hdigit : isDigit c
    · simp only [readDigits, digitValue?_of_isDigit hdigit]
      split
      next hlarge =>
        constructor
        · intro h
          obtain rfl := Except.error.inj h
          exact .overflow hfirst nofun hsmall hdigit hlarge
        · intro h
          obtain ⟨hbad, -⟩ | ⟨-, -, rfl⟩ | ⟨-, hle, -⟩ := h.cases_cons
          · exact absurd hdigit hbad
          · rfl
          · omega
      next hle =>
        rw [ih (by omega)]
        constructor
        · intro h
          exact h.cons hdigit
        · intro h
          obtain ⟨hbad, -⟩ | ⟨-, hlarge, -⟩ | ⟨-, -, hrest⟩ := h.cases_cons
          · exact absurd hdigit hbad
          · omega
          · exact hrest
    · simp only [readDigits, digitValue?_of_not_isDigit hdigit]
      constructor
      · intro h
        obtain rfl := Except.error.inj h
        exact .badDigit hfirst nofun hsmall hdigit
      · intro h
        obtain ⟨-, rfl⟩ | ⟨hdigit', -⟩ | ⟨hdigit', -⟩ := h.cases_cons
        · rfl
        · exact absurd hdigit' hdigit
        · exact absurd hdigit' hdigit

/-- Reading fails for want of a character, or else where it breaks off behind the sign. -/
theorem readNumber_eq_error_iff : readNumber bound cs = .error fault ↔
    cs = [] ∧ fault = .empty ∨ BreaksOff bound 0 (unsigned cs) fault := by
  have digits_iff (ds : List Char) : readDigits bound 0 ds = .error fault ↔
      BreaksOff bound 0 ds fault := readDigits_eq_error_iff (Nat.zero_le _)
  match cs with
  | [] => simp [readNumber, unsigned, not_breaksOff_nil, eq_comm]
  | c :: cs =>
    by_cases hplus : c = '+'
    · subst hplus
      cases cs with
      | nil =>
        -- A sign alone is taken for a digit, and a bad one.
        have hread : readNumber bound ['+'] = readDigits bound 0 ['+'] := rfl
        rw [hread, digits_iff]
        simp [unsigned]
      | cons d ds =>
        have hread : readNumber bound ('+' :: d :: ds) = readDigits bound 0 (d :: ds) := rfl
        rw [hread, digits_iff]
        simp [unsigned]
    · rw [readNumber.eq_4 _ _ (by simp) (by simp [hplus]) (by simp [hplus]), digits_iff,
        unsigned.eq_2 _ (by simp [hplus])]
      simp

end RingRelay.Text
