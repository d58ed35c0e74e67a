import RingRelay.Pattern.Reading
/- Whether a pattern can be used.

   Patterns match characters by their code points only. So what needs more knowledge of characters
   is refused: shorthands and properties for characters of all scripts, and comparing without regard
   to case. A pattern about bytes must not match what is no text. Where words begin and end is known
   for ASCII alone. -/
namespace RingRelay

/-- Why a pattern cannot be used. -/
inductive PatternFault
  | malformed
  /-- The pattern asks for the edges of words of all scripts. -/
  | wordEdges
  deriving DecidableEq, Repr

def PatternFault.message : PatternFault → String
  | .malformed => "error building NFA"
  | .wordEdges =>
    "unsupported regex feature for DFAs: cannot build DFAs for regexes with Unicode word " ++
    "boundaries; switch to ASCII word boundaries, or heuristically enable Unicode word " ++
    "boundaries or use a different regex engine"

namespace Pattern

/-- The flags that decide what can be used. -/
structure Flags where
  ignoreCase : Bool := false
  unicode : Bool := true

def Flags.apply (flags : Flags) (items : List FlagItem) : Flags where
  ignoreCase := (setting? .ignoreCase true items).getD flags.ignoreCase
  unicode := (setting? .unicode true items).getD flags.unicode

mutual

/-- Whether no character is in an item, also without regard to case. -/
def SetItem.isEmpty : SetItem → Bool
  | .nested false s => s.isEmpty
  | _ => false

/-- Whether no character is named in a set. -/
def CharSet.isEmpty : CharSet → Bool
  | .union items => areEmpty items
  | .operation left right => left.isEmpty && right.isEmpty

def areEmpty : List SetItem → Bool
  | [] => true
  | item :: items => item.isEmpty && areEmpty items

end

/-- A literal that can stand in a pattern about bytes. -/
def Literal.isText (l : Literal) : Bool := !l.isByte || l.char.toNat < 0x80

/-- A literal that can stand in a set of bytes. -/
def Literal.isAscii (l : Literal) : Bool := l.char.toNat < 0x80

mutual

/-- Whether an item can stand in a set of characters, or of bytes if `unicode` is off. -/
def SetItem.isUsable (unicode : Bool) : SetItem → Bool
  | .literal l => unicode || l.isAscii
  | .range first last => unicode || (first.isAscii && last.isAscii)
  | .named negated => unicode || !negated
  | .shorthand negated => !unicode && !negated
  | .property => false
  | .nested negated s => (unicode || !negated) && s.isUsable unicode

def CharSet.isUsable (unicode : Bool) : CharSet → Bool
  | .union items => areUsable unicode items
  | .operation left right => left.isUsable unicode && right.isUsable unicode

def areUsable (unicode : Bool) : List SetItem → Bool
  | [] => true
  | item :: items => item.isUsable unicode && areUsable unicode items

end

/-- Whether a set can be used with flags. -/
def Flags.allowSet (flags : Flags) (negated : Bool) (s : CharSet) : Bool :=
  (flags.unicode || !negated) && s.isUsable flags.unicode &&
    (!(flags.unicode && flags.ignoreCase) || s.isEmpty)

mutual

/-- Goes through a pattern with the flags at its beginning: the flags at its end, and whether it
    asks for the edges of words of all scripts. There is no answer if the pattern cannot be used. -/
def survey (flags : Flags) : Pattern → Option (Flags × Bool)
  | .empty => some (flags, false)
  | .literal l =>
    if if flags.unicode then !flags.ignoreCase else l.isText then some (flags, false) else none
  | .anyChar => if flags.unicode then some (flags, false) else none
  | .assertion a => some (flags, flags.unicode && a.isAboutWords)
  | .shorthand negated => if !flags.unicode && !negated then some (flags, false) else none
  | .property => none
  | .set negated s => if flags.allowSet negated s then some (flags, false) else none
  | .flags items => some (flags.apply items, false)
  | .repetition p => survey flags p
  | .group items p => do
    let (_, words) ← survey (flags.apply items) p
    return (flags, words)
  | .concat ps => surveyAll flags ps
  | .alternation ps => surveyAll flags ps

/-- Goes through patterns one after another. Flags of one hold in the next. -/
def surveyAll (flags : Flags) : List Pattern → Option (Flags × Bool)
  | [] => some (flags, false)
  | p :: ps => do
    let (flags, words) ← survey flags p
    let (flags, more) ← surveyAll flags ps
    return (flags, words || more)

end

/-- Why the characters are no pattern that can be used, if they are none. -/
def fault? (cs : List Char) : Option PatternFault :=
  match read cs >>= survey {} with
  | none => some .malformed
  | some (_, words) => if words then some .wordEdges else none

end Pattern

end RingRelay
