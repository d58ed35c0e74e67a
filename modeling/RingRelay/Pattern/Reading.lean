import RingRelay.Pattern.Basic
import RingRelay.Text.Alphanumeric
import RingRelay.Text.Blank
import RingRelay.Text.Digits
/- Reading patterns.

   Every function takes the characters that are still to be read and gives `none`, or what it read
   and the characters behind it. A pattern is the value of a field of a directive, which ends at the
   first closing brace: so nothing that needs a pair of braces can be written. -/
namespace RingRelay.Pattern

open Text (isHexDigit digitValue charOf?)

/-- How deep a pattern may be. -/
def depthLimit : Nat := 250

/-- What changes while a pattern is read. -/
structure Mode where
  verbose : Bool := false
  /-- The names of the groups so far. -/
  names : List (List Char) := []

/-- Skips blanks and comments. It is enough to let `fuel` be the number of characters. -/
def skipComments : (fuel : Nat) → List Char → List Char
  | 0, cs => cs
  | fuel + 1, cs =>
    match cs.dropWhile Text.isBlankChar with
    | '#' :: rest => skipComments fuel ((rest.dropWhile (· != '\n')).drop 1)
    | rest => rest

/-- Skips what counts for nothing. -/
def Mode.skip (mode : Mode) (cs : List Char) : List Char :=
  if mode.verbose then skipComments cs.length cs else cs

/-- The character that comes next, behind blanks and perhaps the mark of a comment if they count for
    nothing. -/
def Mode.next? (mode : Mode) (cs : List Char) : Option Char :=
  if mode.verbose then
    match cs.dropWhile Text.isBlankChar with
    | '#' :: rest => (rest.dropWhile Text.isBlankChar).head?
    | rest => rest.head?
  else cs.head?

/-! ## Escapes -/

/-- The value of `count` more hexadecimal digits, which follow digits with the value `value`. -/
def readHex (mode : Mode) : (count value : Nat) → List Char → Option (Nat × List Char)
  | 0, value, cs => some (value, cs)
  | _ + 1, _, [] => none
  | count + 1, value, c :: rest =>
    if isHexDigit c then readHex mode count (16 * value + digitValue c) (mode.skip rest) else none

/-- A character by its code point in `count` hexadecimal digits. -/
def readCodePoint (mode : Mode) (count : Nat) (cs : List Char) : Option (Pattern × List Char) := do
  let (value, rest) ← readHex mode count 0 (mode.skip cs)
  let char ← charOf? value
  return (.literal { char, isByte := count = 2 }, rest)

/-- A property of characters, given by one letter. -/
def readProperty (mode : Mode) (cs : List Char) : Option (Pattern × List Char) :=
  match mode.skip cs with
  | [] => none
  | c :: rest => if c = '\\' then none else some (.property, mode.skip rest)

/-- Whether a character stands for itself behind a backslash: letters and digits, the angle brackets
    and what lies beyond ASCII do not. -/
def isEscapable (c : Char) : Bool := c.toNat < 0x80 && !c.isAlphanum && c != '<' && c != '>'

/-- What a backslash and the characters behind it stand for. -/
def readEscape (mode : Mode) : List Char → Option (Pattern × List Char)
  | [] => none
  | 'x' :: rest => readCodePoint mode 2 rest
  | 'u' :: rest => readCodePoint mode 4 rest
  | 'U' :: rest => readCodePoint mode 8 rest
  | 'p' :: rest => readProperty mode rest
  | 'P' :: rest => readProperty mode rest
  | 'd' :: rest => some (.shorthand false, rest)
  | 's' :: rest => some (.shorthand false, rest)
  | 'w' :: rest => some (.shorthand false, rest)
  | 'D' :: rest => some (.shorthand true, rest)
  | 'S' :: rest => some (.shorthand true, rest)
  | 'W' :: rest => some (.shorthand true, rest)
  | 'a' :: rest => some (.literal { char := '\x07' }, rest)
  | 'f' :: rest => some (.literal { char := '\x0c' }, rest)
  | 't' :: rest => some (.literal { char := '\t' }, rest)
  | 'n' :: rest => some (.literal { char := '\n' }, rest)
  | 'r' :: rest => some (.literal { char := '\r' }, rest)
  | 'v' :: rest => some (.literal { char := '\x0b' }, rest)
  | 'A' :: rest => some (.assertion .textStart, rest)
  | 'z' :: rest => some (.assertion .textEnd, rest)
  | 'b' :: rest => some (.assertion .wordEdge, rest)
  | 'B' :: rest => some (.assertion .insideOrOutsideWord, rest)
  | '<' :: rest => some (.assertion .wordStart, rest)
  | '>' :: rest => some (.assertion .wordEnd, rest)
  | c :: rest => if isEscapable c then some (.literal { char := c }, rest) else none

/-! ## Sets of characters -/

/-- A part of a pattern as an item of a set. -/
def SetItem.of? : Pattern → Option SetItem
  | .literal l => some (.literal l)
  | .shorthand negated => some (.shorthand negated)
  | .property => some .property
  | _ => none

def Literal.of? : Pattern → Option Literal
  | .literal l => some l
  | _ => none

/-- One end of a range, or an item that is no range. -/
def readMember (mode : Mode) : List Char → Option (Pattern × List Char)
  | [] => none
  | '\\' :: rest => readEscape mode rest
  | c :: rest => some (.literal { char := c }, rest)

/-- An item of a set, which may be a range. A dash before the closing bracket or before another dash
    makes no range. -/
def readItem (mode : Mode) (cs : List Char) : Option (SetItem × List Char) := do
  let (first, rest) ← readMember mode cs
  match mode.skip rest with
  | [] => none
  | '-' :: behind =>
    if mode.next? behind = some ']' ∨ mode.next? behind = some '-' then
      return (← SetItem.of? first, '-' :: behind)
    else
      let (last, rest) ← readMember mode (mode.skip behind)
      let first ← Literal.of? first
      let last ← Literal.of? last
      guard (first.char ≤ last.char)
      return (.range first last, rest)
  | rest => return (← SetItem.of? first, rest)

/-- The names of the classes of ASCII. -/
def classNames : List String :=
  ["alnum", "alpha", "ascii", "blank", "cntrl", "digit", "graph", "lower", "print", "punct",
    "space", "upper", "word", "xdigit"]

/-- A class of ASCII by its name between colons, behind the bracket before the first. -/
def readNamed : List Char → Option (SetItem × List Char)
  | ':' :: cs => do
    let (negated, cs) := match cs with
      | '^' :: rest => (true, rest)
      | rest => (false, rest)
    match cs.dropWhile (· != ':') with
    | ':' :: ']' :: rest =>
      guard (classNames.contains (String.ofList (cs.takeWhile (· != ':'))))
      return (.named negated, rest)
    | _ => none
  | _ => none

/-- The dashes with which a set begins. -/
def readDashes (mode : Mode) : (fuel : Nat) → List SetItem → List Char → List SetItem × List Char
  | fuel + 1, items, '-' :: rest =>
    readDashes mode fuel (.literal { char := '-' } :: items) (mode.skip rest)
  | _, items, cs => (items, cs)

/-- The beginning of a set behind its opening bracket: whether it is negated, and the items that are
    literal only here. -/
def readSetOpening (mode : Mode) (cs : List Char) : Bool × List SetItem × List Char :=
  let (negated, cs) := match mode.skip cs with
    | '^' :: rest => (true, mode.skip rest)
    | rest => (false, rest)
  match readDashes mode cs.length [] cs with
  | ([], ']' :: rest) => (negated, [.literal { char := ']' }], mode.skip rest)
  | (items, rest) => (negated, items, rest)

/-- A set up to here: the operations before, and the items behind the last of them, latest first. -/
def CharSet.of (left : Option CharSet) (items : List SetItem) : CharSet :=
  match left with
  | none => .union items.reverse
  | some left => .operation left (.union items.reverse)

/-- The rest of a set, up to its closing bracket. -/
def readSet : (fuel : Nat) → Mode → Option CharSet → List SetItem → List Char →
    Option (CharSet × List Char)
  | 0, _, _, _, _ => none
  | fuel + 1, mode, left, items, cs =>
    match mode.skip cs with
    | [] => none
    | '[' :: rest =>
      match readNamed rest with
      | some (item, rest) => readSet fuel mode left (item :: items) rest
      | none =>
        let (negated, first, rest) := readSetOpening mode rest
        match readSet fuel mode none first rest with
        | some (s, rest) => readSet fuel mode left (.nested negated s :: items) rest
        | none => none
    | ']' :: rest => some (.of left items, rest)
    | '&' :: '&' :: rest => readSet fuel mode (some (.of left items)) [] rest
    | '-' :: '-' :: rest => readSet fuel mode (some (.of left items)) [] rest
    | '~' :: '~' :: rest => readSet fuel mode (some (.of left items)) [] rest
    | cs =>
      match readItem mode cs with
      | some (item, rest) => readSet fuel mode left (item :: items) rest
      | none => none

/-! ## Groups -/

/-- What an opening parenthesis begins. -/
inductive Opening
  /-- Flags for the rest of the group around it. -/
  | flags (items : List FlagItem)
  /-- A group, perhaps with a name or with flags of its own. -/
  | group (name : Option (List Char)) (items : List FlagItem)

def FlagItem.of? : Char → Option FlagItem
  | '-' => some .negation
  | 'i' => some (.flag .ignoreCase)
  | 'm' => some (.flag .multiLine)
  | 's' => some (.flag .dotTakesNewline)
  | 'U' => some (.flag .swapGreed)
  | 'u' => some (.flag .unicode)
  | 'R' => some (.flag .carriageReturns)
  | 'x' => some (.flag .verbose)
  | _ => none

/-- Flags up to a colon, which begins a group, or a closing parenthesis. No flag may come twice, and
    none may be missing behind a negation. -/
def readFlags (items : List FlagItem) : List Char → Option (Opening × List Char)
  | [] => none
  | ':' :: rest => do
    guard (items.getLast? ≠ some .negation)
    return (.group none items, rest)
  | ')' :: rest => do
    guard (items.getLast? ≠ some .negation)
    guard (items ≠ [])
    return (.flags items, rest)
  | c :: rest => do
    let item ← FlagItem.of? c
    guard (item ∉ items)
    readFlags (items ++ [item]) rest

/-- Whether characters can name a group. -/
def isName : List Char → Bool
  | [] => false
  | c :: cs =>
    (c == '_' || Text.isAlphabetic c) &&
      cs.all fun c => c == '_' || c == '.' || c == '[' || c == ']' || Text.isAlphanumeric c

/-- The name of a group, which no other group may have. -/
def readName (mode : Mode) (cs : List Char) : Option (Opening × List Char) :=
  match cs.dropWhile (· != '>') with
  | '>' :: rest => do
    let name := cs.takeWhile (· != '>')
    guard (isName name ∧ name ∉ mode.names)
    return (.group (some name) [], rest)
  | _ => none

/-- What begins behind an opening parenthesis. Looking ahead or behind is refused. -/
def readOpening (mode : Mode) (cs : List Char) : Option (Opening × List Char) :=
  match mode.skip cs with
  | '?' :: '<' :: '=' :: _ => none
  | '?' :: '<' :: '!' :: _ => none
  | '?' :: '<' :: rest => readName mode rest
  | '?' :: 'P' :: '<' :: rest => readName mode rest
  | '?' :: rest => readFlags [] rest
  | rest => some (.group none [], rest)

/-! ## Patterns -/

/-- Whether a part of a pattern can be repeated. -/
def isRepeatable : Pattern → Bool
  | .empty => false
  | .flags _ => false
  | _ => true

/-- The mode with flags. -/
def Mode.apply (mode : Mode) (items : List FlagItem) : Mode :=
  { mode with verbose := (setting? .verbose true items).getD mode.verbose }

/-- The mode at the beginning of a group. -/
def Mode.enter (mode : Mode) (name : Option (List Char)) (items : List FlagItem) : Mode :=
  { mode.apply items with names := name.toList ++ mode.names }

/-- The mode behind a group in which `inner` was reached. -/
def Mode.leave (mode inner : Mode) : Mode := { mode with names := inner.names }

/-- The mark behind a repetition that makes it take as little as it can. -/
def skipLazyMark : List Char → List Char
  | '?' :: rest => rest
  | rest => rest

/-- A pattern of branches and, for its last branch, the parts. Both are given latest first. -/
def close (branches parts : List Pattern) : Pattern :=
  ofBranches ((ofParts parts.reverse :: branches).reverse)

/-- Reads up to the end of a group or of the pattern. -/
def readInner : (fuel : Nat) → Mode → (branches parts : List Pattern) → List Char →
    Option (Pattern × Mode × List Char)
  | 0, _, _, _, _ => none
  | fuel + 1, mode, branches, parts, cs =>
    match mode.skip cs with
    | [] => some (close branches parts, mode, [])
    | ')' :: rest => some (close branches parts, mode, ')' :: rest)
    | '|' :: rest => readInner fuel mode (ofParts parts.reverse :: branches) [] rest
    | '(' :: rest =>
      match readOpening mode rest with
      | none => none
      | some (.flags items, rest) =>
        readInner fuel (mode.apply items) branches (.flags items :: parts) rest
      | some (.group name items, rest) =>
        match readInner fuel (mode.enter name items) [] [] rest with
        | some (inner, mode', ')' :: rest) =>
          readInner fuel (mode.leave mode') branches (.group items inner :: parts) rest
        | _ => none
    | '[' :: rest =>
      let (negated, first, rest) := readSetOpening mode rest
      match readSet fuel mode none first rest with
      | some (s, rest) => readInner fuel mode branches (.set negated s :: parts) rest
      | none => none
    | '\x7b' :: _ => none
    | '\\' :: rest =>
      match readEscape mode rest with
      | some (part, rest) => readInner fuel mode branches (part :: parts) rest
      | none => none
    | '.' :: rest => readInner fuel mode branches (.anyChar :: parts) rest
    | '^' :: rest => readInner fuel mode branches (.assertion .lineStart :: parts) rest
    | '$' :: rest => readInner fuel mode branches (.assertion .lineEnd :: parts) rest
    | c :: rest =>
      if c = '?' ∨ c = '*' ∨ c = '+' then
        match parts with
        | [] => none
        | last :: before =>
          if isRepeatable last then
            readInner fuel mode branches (.repetition last :: before) (skipLazyMark rest)
          else none
      else readInner fuel mode branches (.literal { char := c } :: parts) rest

/-- The pattern that characters write. -/
def read (cs : List Char) : Option Pattern :=
  match readInner (cs.length + 1) {} [] [] cs with
  | some (pattern, _, []) => if pattern.depth ≤ depthLimit then some pattern else none
  | _ => none

end RingRelay.Pattern
