import RingRelay.Text.Ranges
/- Blank characters and the text between them.

   A character is blank if it has the Unicode property White_Space. A text is blank if all its
   characters are, and trimming drops the blank characters at both ends. -/
namespace RingRelay.Text

/-- The code points with the property White_Space. -/
def blankRanges : List (Nat × Nat) :=
  [(0x9, 0xd), (0x20, 0x20), (0x85, 0x85), (0xa0, 0xa0), (0x1680, 0x1680), (0x2000, 0x200a),
    (0x2028, 0x2029), (0x202f, 0x202f), (0x205f, 0x205f), (0x3000, 0x3000)]

def isBlankChar (c : Char) : Bool := inRanges blankRanges c

/-- The characters without the blank ones at both ends. -/
def trimChars (cs : List Char) : List Char :=
  ((cs.dropWhile isBlankChar).reverse.dropWhile isBlankChar).reverse

/-- The text without the blank characters at both ends. -/
def trim (text : String) : String := String.ofList (trimChars text.toList)

/-- A text with no character that is not blank. -/
def isBlank (text : String) : Bool := text.toList.all isBlankChar

end RingRelay.Text
