import RingRelay.Toml.Lexical
/- Dates and times of TOML: a date, a time of day, or both, then perhaps with an offset from
   universal time. Months have the days of the Gregorian calendar; a minute may have a second 60. -/
namespace RingRelay.Toml

open Text (isDigit digitsValue)

/-- A number of exactly `count` digits that lies between two bounds. -/
def fixedNumber? (count least greatest : Nat) (cs : List Char) : Option (Nat × List Char) :=
  let digits := cs.take count
  let value := digitsValue 10 digits
  if digits.length = count ∧ digits.all isDigit ∧ least ≤ value ∧ value ≤ greatest then
    some (value, cs.drop count)
  else none

/-- The characters behind `c`. -/
def expect? (c : Char) : List Char → Option (List Char)
  | d :: rest => if d = c then some rest else none
  | [] => none

def isLeapYear (year : Nat) : Bool := year % 4 == 0 && (year % 100 != 0 || year % 400 == 0)

def daysInMonth (year month : Nat) : Nat :=
  if month = 2 then (if isLeapYear year then 29 else 28)
  else if month = 4 ∨ month = 6 ∨ month = 9 ∨ month = 11 then 30 else 31

/-- The characters behind a date. -/
def date? (cs : List Char) : Option (List Char) := do
  let (year, cs) ← fixedNumber? 4 0 9999 cs
  let cs ← expect? '-' cs
  let (month, cs) ← fixedNumber? 2 1 12 cs
  let cs ← expect? '-' cs
  let (_, cs) ← fixedNumber? 2 1 (daysInMonth year month) cs
  return cs

/-- The characters behind a fraction of a second, if there is one. -/
def secondFraction? : List Char → Option (List Char)
  | '.' :: rest => if rest.head?.any isDigit then some (rest.dropWhile isDigit) else none
  | cs => some cs

/-- The characters behind a time of day. -/
def time? (cs : List Char) : Option (List Char) := do
  let (_, cs) ← fixedNumber? 2 0 23 cs
  let cs ← expect? ':' cs
  let (_, cs) ← fixedNumber? 2 0 59 cs
  let cs ← expect? ':' cs
  let (_, cs) ← fixedNumber? 2 0 60 cs
  secondFraction? cs

/-- The characters behind an offset, if there is one. -/
def offset? : List Char → Option (List Char)
  | [] => some []
  | c :: rest =>
    if c = 'Z' ∨ c = 'z' then some rest
    else if c = '+' ∨ c = '-' then do
      let (_, rest) ← fixedNumber? 2 0 23 rest
      let rest ← expect? ':' rest
      let (_, rest) ← fixedNumber? 2 0 59 rest
      return rest
    else some (c :: rest)

/-- The characters behind a date and what follows it: a time may, after one of three marks. A blank
    that no time follows is not part of the date. -/
def dateAndTime? (cs : List Char) : Option (List Char) := do
  let behind ← date? cs
  match behind with
  | [] => return []
  | c :: rest =>
    if c = 'T' ∨ c = 't' then offset? (← time? rest)
    else if c = ' ' ∧ rest.head?.any isDigit then offset? (← time? rest)
    else return behind

/-- Whether a date begins here: four digits and a dash. -/
def beginsDate (cs : List Char) : Bool :=
  (cs.take 4).length == 4 && (cs.take 4).all isDigit && (cs.drop 4).head? == some '-'

/-- Whether a time of day begins here: two digits and a colon. -/
def beginsTime (cs : List Char) : Bool :=
  (cs.take 2).length == 2 && (cs.take 2).all isDigit && (cs.drop 2).head? == some ':'

/-- A date or a time: the characters behind it. -/
def moment? (cs : List Char) : Option (List Char) :=
  if beginsDate cs then dateAndTime? cs else time? cs

end RingRelay.Toml
