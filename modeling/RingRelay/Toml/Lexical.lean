import RingRelay.Text.Digits
/- The lexical grounds of TOML: blanks, line ends, comments, and taking characters of a class.

   Every function here takes the characters that are still to be read. One that may fail gives
   `none`, otherwise what it read, if that matters, and the characters behind it. -/
namespace RingRelay.Toml

open Text (isDigit)

def isBlank (c : Char) : Bool := c == ' ' || c == '\t'

/-- Characters above ASCII, which are allowed in comments and strings. -/
def isBeyondAscii (c : Char) : Bool := 0x80 ≤ c.toNat

/-- Comments take the tab and every character that is not a control of ASCII. -/
def isCommentChar (c : Char) : Bool :=
  c == '\t' || (0x20 ≤ c.toNat && c.toNat ≤ 0x7e) || isBeyondAscii c

/-- Characters of a key without quotes. -/
def isBareKeyChar (c : Char) : Bool :=
  isDigit c || ('a' ≤ c && c ≤ 'z') || ('A' ≤ c && c ≤ 'Z') || c == '-' || c == '_'

def skipBlanks (cs : List Char) : List Char := cs.dropWhile isBlank

/-- A line end: a line feed, with or without a carriage return before it. -/
def newline? : List Char → Option (List Char)
  | '\n' :: rest => some rest
  | '\r' :: '\n' :: rest => some rest
  | _ => none

/-- A line end, or the end of the document. -/
def lineEnd? : List Char → Option (List Char)
  | [] => some []
  | cs => newline? cs

/-- The characters behind a comment, if one begins here. -/
def skipComment : List Char → List Char
  | '#' :: rest => rest.dropWhile isCommentChar
  | cs => cs

/-- What may stand behind a statement: blanks, a comment, and the end of the line. -/
def statementEnd? (cs : List Char) : Option (List Char) :=
  lineEnd? (skipComment (skipBlanks cs))

/-- Skips blanks, line ends and comments, as between the items of an array. It is enough to let
    `fuel` be the number of characters. -/
def skipGaps : (fuel : Nat) → List Char → List Char
  | 0, cs => cs
  | fuel + 1, cs =>
    match newline? (skipComment (skipBlanks cs)) with
    | some rest => skipGaps fuel rest
    | none => skipBlanks cs

/-- The characters before `rest`, which is an end of `cs`, as a text. -/
def lexeme (cs rest : List Char) : String := String.ofList (cs.take (cs.length - rest.length))

end RingRelay.Toml
