/- Patterns: regular expressions for the values of fields, as trees.

   A pattern is a tree of characters, sets of characters, assertions, repetitions and groups. Flags
   change how the rest of a group is understood. -/
namespace RingRelay

namespace Pattern

/-- What a group of a pattern can switch on or off. -/
inductive Flag
  | ignoreCase
  | multiLine
  | dotTakesNewline
  | swapGreed
  /-- Whether the pattern is about characters of all scripts, or about bytes. -/
  | unicode
  | carriageReturns
  /-- Whether blanks and comments in the pattern count for nothing. -/
  | verbose
  deriving DecidableEq, Repr

/-- An item in a list of flags. Behind a negation flags are switched off. -/
inductive FlagItem
  | negation
  | flag (f : Flag)
  deriving DecidableEq, Repr

/-- Whether the items behind a place, at which flags are switched `on` or off, say something about a
    flag, and what. -/
def setting? (flag : Flag) : (on : Bool) → List FlagItem → Option Bool
  | _, [] => none
  | _, .negation :: items => setting? flag false items
  | on, .flag f :: items => if f = flag then some on else setting? flag on items

/-- A character that stands for itself. -/
structure Literal where
  char : Char
  /-- Whether it is written as a byte, by two hexadecimal digits. -/
  isByte : Bool := false
  deriving DecidableEq, Repr

/-- A condition on a place in a text. -/
inductive Assertion
  | lineStart
  | lineEnd
  | textStart
  | textEnd
  | wordEdge
  | insideOrOutsideWord
  | wordStart
  | wordEnd
  deriving DecidableEq, Repr

/-- Whether an assertion depends on which characters make up words. -/
def Assertion.isAboutWords : Assertion → Bool
  | lineStart => false
  | lineEnd => false
  | textStart => false
  | textEnd => false
  | wordEdge => true
  | insideOrOutsideWord => true
  | wordStart => true
  | wordEnd => true

mutual

/-- An item of a set of characters. -/
inductive SetItem
  | literal (l : Literal)
  | range (first last : Literal)
  /-- A class of ASCII by its name. -/
  | named (negated : Bool)
  /-- Digits, blanks or the characters of words, by a letter. -/
  | shorthand (negated : Bool)
  /-- The characters with a property of Unicode. -/
  | property
  | nested (negated : Bool) (set : CharSet)

/-- A set of characters: a union, or two sets with an operation between them. -/
inductive CharSet
  | union (items : List SetItem)
  | operation (left right : CharSet)

end

end Pattern

inductive Pattern
  | empty
  | literal (l : Pattern.Literal)
  | anyChar
  | assertion (a : Pattern.Assertion)
  | shorthand (negated : Bool)
  | property
  | set (negated : Bool) (set : Pattern.CharSet)
  | flags (items : List Pattern.FlagItem)
  | repetition (repeated : Pattern)
  | group (items : List Pattern.FlagItem) (inner : Pattern)
  | concat (parts : List Pattern)
  | alternation (branches : List Pattern)

namespace Pattern

/-- The pattern of parts that follow each other. -/
def ofParts : List Pattern → Pattern
  | [] => empty
  | [part] => part
  | parts => concat parts

/-- The pattern of branches of which one is to be taken. -/
def ofBranches : List Pattern → Pattern
  | [] => empty
  | [branch] => branch
  | branches => alternation branches

/-! ## Depth -/

mutual

/-- How deep sets lie in an item. -/
def SetItem.depth : SetItem → Nat
  | .nested _ s => s.depth + 1
  | _ => 0

/-- How deep unions, operations and sets lie in a set. -/
def CharSet.depth : CharSet → Nat
  | .union [] => 0
  | .union [item] => item.depth
  | .union (item :: items) => max item.depth (itemsDepth items) + 1
  | .operation left right => max left.depth right.depth + 1

def itemsDepth : List SetItem → Nat
  | [] => 0
  | item :: items => max item.depth (itemsDepth items)

end

mutual

/-- How deep a pattern is: the number of nodes with parts on the longest way down. -/
def depth : Pattern → Nat
  | set _ s => s.depth + 1
  | repetition p => p.depth + 1
  | group _ p => p.depth + 1
  | concat ps => depths ps + 1
  | alternation ps => depths ps + 1
  | _ => 0

def depths : List Pattern → Nat
  | [] => 0
  | p :: ps => max p.depth (depths ps)

end

end Pattern

end RingRelay
