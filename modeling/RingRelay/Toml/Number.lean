import RingRelay.Toml.Lexical
import RingRelay.Toml.Value
/- Numbers of TOML.

   A decimal integer has no leading zeros and may have an underscore between any two digits; so may
   the integers to the bases 16, 8 and 2, which have no sign. All must fit in 64 signed bits. A
   floating point number is refused if it is so large that it rounds to infinity; written infinity
   is a value of its own. -/
namespace RingRelay.Toml

open Text (isDigit isHexDigit digitsValue)

/-- One or more digits with single underscores between them: the digits, and what follows. -/
def digitRun? (isDigitHere : Char → Bool) : List Char → Option (List Char × List Char)
  | [] => none
  | c :: rest =>
    if isDigitHere c then
      match rest with
      | '_' :: more => (digitRun? isDigitHere more).map fun (cs, rest) => (c :: cs, rest)
      | more =>
        match digitRun? isDigitHere more with
        | some (cs, rest) => some (c :: cs, rest)
        | none => if more.head?.any isDigitHere then none else some ([c], more)
    else none

/-- An integer that fits in 64 signed bits. -/
def integer? (value : Int) : Option Value :=
  if -0x8000000000000000 ≤ value ∧ value < 0x8000000000000000 then some (.integer value) else none

/-- The digits of a decimal integer: a single zero, or a run that does not begin with one. -/
def decimalRun? : List Char → Option (List Char × List Char)
  | '0' :: rest => some (['0'], rest)
  | cs => digitRun? isDigit cs

/-- The exponent of a floating point number, if there is one: its value, and what follows. -/
def exponent? : List Char → Option (Option Int × List Char)
  | c :: rest =>
    if c = 'e' ∨ c = 'E' then
      let (negative, digits) := match rest with
        | '-' :: digits => (true, digits)
        | '+' :: digits => (false, digits)
        | digits => (false, digits)
      (digitRun? isDigit digits).map fun (ds, rest) =>
        let value : Int := digitsValue 10 ds
        (some (if negative then -value else value), rest)
    else some (none, c :: rest)
  | [] => some (none, [])

/-- Whether digits times a power of ten are so large that they round to infinity as a double: from
    the middle between the largest double and 2^1024 on. -/
def roundsToInfinity (digits : List Char) (exponent : Int) : Bool :=
  let value := digitsValue 10 digits
  let limit := Nat.pow 2 1024 - Nat.pow 2 970
  if value = 0 then false
  else if exponent < 0 then
    -exponent ≤ digits.length && limit * Nat.pow 10 (-exponent).toNat ≤ value
  else 400 < exponent || limit ≤ value * Nat.pow 10 exponent.toNat

/-- A floating point number or an integer, behind its sign. -/
def unsigned? (negative : Bool) (cs : List Char) : Option (Value × List Char) := do
  let (whole, rest) ← decimalRun? cs
  let sign := if negative then "-" else ""
  let (fraction, behind) ← match rest with
    | '.' :: rest => (digitRun? isDigit rest).map fun (ds, rest) => (some ds, rest)
    | rest => some (none, rest)
  let (exponent, behind) ← exponent? behind
  if fraction.isNone && exponent.isNone then
    let value : Int := digitsValue 10 whole
    let integer ← integer? (if negative then -value else value)
    return (integer, behind)
  else
    let digits := whole ++ fraction.getD []
    let shift := exponent.getD 0 - ((fraction.getD []).length : Int)
    guard (negative || !roundsToInfinity digits shift)
    let literal := lexeme cs behind
    return (.float (sign ++ literal), behind)

/-- An integer to one of the bases that are marked by a letter. -/
def based? (base : Nat) (isDigitHere : Char → Bool) (cs : List Char) :
    Option (Value × List Char) := do
  let (digits, rest) ← digitRun? isDigitHere cs
  let integer ← integer? (digitsValue base digits)
  return (integer, rest)

/-- The values that are written as words after an optional sign. -/
def special? : List Char → Option (String × List Char)
  | 'i' :: 'n' :: 'f' :: rest => some ("inf", rest)
  | 'n' :: 'a' :: 'n' :: rest => some ("nan", rest)
  | _ => none

/-- A number. -/
def number? (cs : List Char) : Option (Value × List Char) :=
  let signed (negative : Bool) (rest : List Char) :=
    match special? rest with
    | some (word, rest) => some (Value.float (if negative then "-" ++ word else word), rest)
    | none => unsigned? negative rest
  match cs with
  | '0' :: 'x' :: rest => based? 16 isHexDigit rest
  | '0' :: 'o' :: rest => based? 8 (fun c => '0' ≤ c && c ≤ '7') rest
  | '0' :: 'b' :: rest => based? 2 (fun c => c == '0' || c == '1') rest
  | '-' :: rest => signed true rest
  | '+' :: rest => signed false rest
  | rest => signed false rest

end RingRelay.Toml
