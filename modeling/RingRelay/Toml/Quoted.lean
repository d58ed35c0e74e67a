import RingRelay.Toml.Lexical
/- Quoted strings of TOML: basic strings with escapes, literal strings without, and the forms of
   both over several lines. -/
namespace RingRelay.Toml

open Text (isHexDigit digitsValue charOf?)

/-- Characters that stand for themselves in a basic string. -/
def isBasicChar (c : Char) : Bool :=
  c == '\t' || (0x20 ≤ c.toNat && c.toNat ≤ 0x7e && c != '"' && c != '\\') || isBeyondAscii c

/-- Characters that stand for themselves in a literal string. -/
def isLiteralChar (c : Char) : Bool :=
  c == '\t' || (0x20 ≤ c.toNat && c.toNat ≤ 0x7e && c != '\'') || isBeyondAscii c

/-- The character with the code point that `count` hexadecimal digits give. -/
def codePoint? (count : Nat) (cs : List Char) : Option (Char × List Char) :=
  let digits := cs.take count
  if digits.length = count ∧ digits.all isHexDigit then
    (charOf? (digitsValue 16 digits)).map fun c => (c, cs.drop count)
  else none

/-- The character that an escape stands for, read behind its backslash. -/
def escape? : List Char → Option (Char × List Char)
  | 'b' :: rest => some ('\x08', rest)
  | 't' :: rest => some ('\t', rest)
  | 'n' :: rest => some ('\n', rest)
  | 'f' :: rest => some ('\x0c', rest)
  | 'r' :: rest => some ('\r', rest)
  | '"' :: rest => some ('"', rest)
  | '\\' :: rest => some ('\\', rest)
  | 'u' :: rest => codePoint? 4 rest
  | 'U' :: rest => codePoint? 8 rest
  | _ => none

/-- The rest of a basic string, behind its opening quote. -/
def basicRest : (fuel : Nat) → List Char → Option (List Char × List Char)
  | 0, _ => none
  | _ + 1, '"' :: rest => some ([], rest)
  | fuel + 1, '\\' :: rest => do
    let (c, rest) ← escape? rest
    let (cs, rest) ← basicRest fuel rest
    return (c :: cs, rest)
  | fuel + 1, c :: rest => do
    guard (isBasicChar c)
    let (cs, rest) ← basicRest fuel rest
    return (c :: cs, rest)
  | _ + 1, [] => none

/-- The rest of a literal string, behind its opening quote. -/
def literalRest (cs : List Char) : Option (List Char × List Char) :=
  match cs.dropWhile isLiteralChar with
  | '\'' :: rest => some (cs.takeWhile isLiteralChar, rest)
  | _ => none

/-- The end of a string over several lines, behind three of its closing quotes. Up to two more
    quotes belong to the string. -/
def longEnd (quote : Char) : List Char → List Char × List Char
  | a :: b :: rest =>
    if a = quote ∧ b = quote then ([quote, quote], rest)
    else if a = quote then ([quote], b :: rest) else ([], a :: b :: rest)
  | [a] => if a = quote then ([quote], []) else ([], [a])
  | [] => ([], [])

/-- Skips blanks and line ends, as behind a backslash at the end of a line. -/
def skipBlankLines : List Char → List Char
  | '\r' :: '\n' :: rest => skipBlankLines rest
  | c :: rest => if isBlank c || c == '\n' then skipBlankLines rest else c :: rest
  | [] => []

/-- The rest of a basic string over several lines, behind its opening. A line end in it is a line
    feed, however it is written. -/
def longBasicRest : (fuel : Nat) → List Char → Option (List Char × List Char)
  | 0, _ => none
  | _ + 1, '"' :: '"' :: '"' :: rest => some (longEnd '"' rest)
  | fuel + 1, '"' :: rest => do
    let (cs, rest) ← longBasicRest fuel rest
    return ('"' :: cs, rest)
  | fuel + 1, '\\' :: rest =>
    match newline? (skipBlanks rest) with
    | some rest => longBasicRest fuel (skipBlankLines rest)
    | none => do
      let (c, rest) ← escape? rest
      let (cs, rest) ← longBasicRest fuel rest
      return (c :: cs, rest)
  | fuel + 1, c :: rest =>
    match newline? (c :: rest) with
    | some rest => do
      let (cs, rest) ← longBasicRest fuel rest
      return ('\n' :: cs, rest)
    | none => do
      guard (isBasicChar c)
      let (cs, rest) ← longBasicRest fuel rest
      return (c :: cs, rest)
  | _ + 1, [] => none

/-- The rest of a literal string over several lines, behind its opening. -/
def longLiteralRest : (fuel : Nat) → List Char → Option (List Char × List Char)
  | 0, _ => none
  | _ + 1, '\'' :: '\'' :: '\'' :: rest => some (longEnd '\'' rest)
  | fuel + 1, '\'' :: rest => do
    let (cs, rest) ← longLiteralRest fuel rest
    return ('\'' :: cs, rest)
  | fuel + 1, c :: rest =>
    match newline? (c :: rest) with
    | some rest => do
      let (cs, rest) ← longLiteralRest fuel rest
      return ('\n' :: cs, rest)
    | none => do
      guard (isLiteralChar c)
      let (cs, rest) ← longLiteralRest fuel rest
      return (c :: cs, rest)
  | _ + 1, [] => none

/-- Drops a line end right behind the opening of a string over several lines. -/
def dropFirstNewline (cs : List Char) : List Char := (newline? cs).getD cs

/-- A string on one line, which may also be a key. -/
def shortString? (cs : List Char) : Option (String × List Char) :=
  match cs with
  | '"' :: rest => do
    let (text, rest) ← basicRest (rest.length + 1) rest
    return (String.ofList text, rest)
  | '\'' :: rest => do
    let (text, rest) ← literalRest rest
    return (String.ofList text, rest)
  | _ => none

/-- A string of any form. -/
def string? (cs : List Char) : Option (String × List Char) :=
  match cs with
  | '"' :: '"' :: '"' :: rest => do
    let (text, rest) ← longBasicRest (rest.length + 1) (dropFirstNewline rest)
    return (String.ofList text, rest)
  | '\'' :: '\'' :: '\'' :: rest => do
    let (text, rest) ← longLiteralRest (rest.length + 1) (dropFirstNewline rest)
    return (String.ofList text, rest)
  | cs => shortString? cs

end RingRelay.Toml
