import RingRelay.Toml.Moment
import RingRelay.Toml.Number
import RingRelay.Toml.Quoted
import RingRelay.Toml.Tree
/- Reading a TOML document (version 1.0).

   `parse text` is the table that the text writes, or `none` if the text is no TOML document. A byte
   order mark may stand in front. Arrays and inline tables may lie in each other to a depth of
   `nestingLimit`, and a dotted key has fewer than `keyLimit` parts. -/
namespace RingRelay.Toml

def nestingLimit : Nat := 79

def keyLimit : Nat := 80

/-! ## Keys -/

/-- One part of a key. -/
def keyPart? (cs : List Char) : Option (String × List Char) :=
  match shortString? cs with
  | some result => some result
  | none =>
    match cs.takeWhile isBareKeyChar with
    | [] => none
    | part => some (String.ofList part, cs.dropWhile isBareKeyChar)

/-- The parts of a dotted key, with blanks around each. -/
def keyParts? : (fuel : Nat) → List Char → Option (List String × List Char)
  | 0, _ => none
  | fuel + 1, cs => do
    let (part, rest) ← keyPart? (skipBlanks cs)
    match skipBlanks rest with
    | '.' :: rest =>
      let (parts, rest) ← keyParts? fuel rest
      return (part :: parts, rest)
    | rest => return ([part], rest)

/-- A dotted key: its parts but the last, and the last. -/
def key? (cs : List Char) : Option (List String × String × List Char) := do
  let (parts, rest) ← keyParts? (cs.length + 1) cs
  guard (parts.length < keyLimit)
  let last ← parts.getLast?
  return (parts.dropLast, last, rest)

/-! ## Values -/

/-- The items of an array, behind its opening bracket. -/
def items? (item? : List Char → Option (Value × List Char)) :
    (fuel : Nat) → List Char → Option (List Value × List Char)
  | 0, _ => none
  | fuel + 1, cs =>
    match skipGaps cs.length cs with
    | ']' :: rest => some ([], rest)
    | cs => do
      let (item, rest) ← item? cs
      match skipGaps rest.length rest with
      | ',' :: rest =>
        let (items, rest) ← items? item? fuel rest
        return (item :: items, rest)
      | ']' :: rest => return ([item], rest)
      | _ => none

/-- The keys and values of an inline table that has some, behind its opening brace. -/
def pairs? (item? : List Char → Option (Value × List Char)) :
    (fuel : Nat) → Branch → List Char → Option (Branch × List Char)
  | 0, _, _ => none
  | fuel + 1, branch, cs => do
    let (path, key, rest) ← key? cs
    let rest ← expect? '=' rest
    let (item, rest) ← item? (skipBlanks rest)
    let branch ← branch.addValue path key item
    match skipBlanks rest with
    | ',' :: rest => pairs? item? fuel branch rest
    | '\x7d' :: rest => return (branch, rest)
    | _ => none

/-- A value, with at most `depth` arrays and inline tables around any part of it. -/
def value? : (depth : Nat) → List Char → Option (Value × List Char)
  | depth, cs =>
    match cs with
    | [] => none
    | '[' :: rest =>
      match depth with
      | 0 => none
      | depth + 1 => do
        let (items, rest) ← items? (value? depth) (rest.length + 1) rest
        return (.array items, rest)
    | '\x7b' :: rest =>
      match depth with
      | 0 => none
      | depth + 1 =>
        match skipBlanks rest with
        | '\x7d' :: rest => some (.table [], rest)
        | rest => do
          let (branch, rest) ← pairs? (value? depth) (rest.length + 1) [] rest
          return (.table (finishEntries branch), rest)
    | 't' :: 'r' :: 'u' :: 'e' :: rest => some (.boolean true, rest)
    | 'f' :: 'a' :: 'l' :: 's' :: 'e' :: rest => some (.boolean false, rest)
    | c :: rest =>
      if c = '"' ∨ c = '\'' then do
        let (text, rest) ← string? cs
        return (.string text, rest)
      else if beginsDate (c :: rest) || beginsTime (c :: rest) then do
        let behind ← moment? (c :: rest)
        return (.moment (lexeme (c :: rest) behind), behind)
      else number? (c :: rest)

/-! ## Lines -/

/-- The end of a header: a closing bracket or two, and the end of the line. -/
def headerEnd? (double : Bool) (cs : List Char) : Option (List Char) := do
  let cs ← expect? ']' cs
  let cs ← if double then expect? ']' cs else some cs
  statementEnd? cs

/-- Reads the lines of a document into a draft. It is enough to let `fuel` exceed the number of
    characters. -/
def lines? : (fuel : Nat) → Draft → List Char → Option Draft
  | 0, _, _ => none
  | fuel + 1, draft, cs =>
    match skipBlanks cs with
    | [] => some draft
    | '[' :: '[' :: rest => do
      let (path, key, rest) ← key? rest
      let draft ← draft.openElement (path ++ [key])
      lines? fuel draft (← headerEnd? true rest)
    | '[' :: rest => do
      let (path, key, rest) ← key? rest
      let draft ← draft.openTable (path ++ [key])
      lines? fuel draft (← headerEnd? false rest)
    | cs =>
      match statementEnd? cs with
      | some rest => lines? fuel draft rest
      | none => do
        let (path, key, rest) ← key? cs
        let rest ← expect? '=' rest
        let (v, rest) ← value? nestingLimit (skipBlanks rest)
        let draft ← draft.addLine path key v
        lines? fuel draft (← statementEnd? rest)

/-- The characters of a document behind a byte order mark. -/
def dropByteOrderMark : List Char → List Char
  | '\uFEFF' :: rest => rest
  | cs => cs

/-- The table that a text writes. -/
def parse (text : String) : Option Table := do
  let cs := dropByteOrderMark text.toList
  let draft ← lines? (cs.length + 1) Draft.empty cs
  draft.finish

end RingRelay.Toml
