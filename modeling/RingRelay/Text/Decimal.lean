import RingRelay.Text.Digits
/- Reading unsigned decimal numbers of bounded size, and telling which texts write numbers at all.

   A bounded number is one optional `+` and then one or more ASCII digits. The digits are read from
   left to right, and the first thing that goes wrong decides: a character that is no digit, or a
   value that has grown above the bound. -/
namespace RingRelay.Text

/-- Why a text is not a number. -/
inductive NumberFault
  | empty
  | invalidDigit
  | tooLarge
  deriving DecidableEq, Repr

def NumberFault.message : NumberFault → String
  | .empty => "cannot parse integer from empty string"
  | .invalidDigit => "invalid digit found in string"
  | .tooLarge => "number too large to fit in target type"

/-- The value of an ASCII digit. -/
def digitValue? (c : Char) : Option Nat :=
  if '0' ≤ c ∧ c ≤ '9' then some (c.toNat - '0'.toNat) else none

/-- Reads the digits that follow digits with the value `value`. -/
def readDigits (bound : Nat) : Nat → List Char → Except NumberFault Nat
  | value, [] => .ok value
  | value, c :: cs =>
    match digitValue? c with
    | none => .error .invalidDigit
    | some d =>
      if bound < 10 * value + d then .error .tooLarge else readDigits bound (10 * value + d) cs

/-- The number, at most `bound`, that the characters write. -/
def readNumber (bound : Nat) : List Char → Except NumberFault Nat
  | [] => .error .empty
  | ['+'] => .error .invalidDigit
  | '+' :: cs => readDigits bound 0 cs
  | cs => readDigits bound 0 cs

/-- The largest size that a machine word can give. -/
def maxSize : Nat := 0xffffffffffffffff

/-- The size that a text writes. -/
def readSize (cs : List Char) : Except NumberFault Nat := readNumber maxSize cs

/-! ## Numbers that need not be whole -/

def dropSign : List Char → List Char
  | '+' :: cs => cs
  | '-' :: cs => cs
  | cs => cs

/-- Whether characters are nothing or an exponent. -/
def isExponent : List Char → Bool
  | [] => true
  | c :: cs =>
    (c == 'e' || c == 'E') && !(dropSign cs).isEmpty && (dropSign cs).all isDigit

/-- Whether characters write a number without a sign: digits, a point before, among or behind them,
    and an exponent, of which the digits are needed. -/
def isMagnitude (cs : List Char) : Bool :=
  match cs.dropWhile isDigit with
  | '.' :: rest =>
    (cs.head?.any isDigit || rest.head?.any isDigit) && isExponent (rest.dropWhile isDigit)
  | rest => cs.head?.any isDigit && isExponent rest

/-- Whether characters name infinity, or what is no number, in upper or lower case. -/
def isSpecialName (cs : List Char) : Bool :=
  ["inf", "infinity", "nan"].contains (String.ofList (cs.map Char.toLower))

/-- Whether characters write a number, perhaps with a sign. -/
def isNumber (cs : List Char) : Bool := isMagnitude (dropSign cs) || isSpecialName (dropSign cs)

end RingRelay.Text
