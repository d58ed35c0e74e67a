import RingRelay.Text.Alphabetic
import RingRelay.Text.Numeric
/- Letters, digits and numbers of all scripts. -/
namespace RingRelay.Text

/-- A letter, a digit or a number of any script. -/
def isAlphanumeric (c : Char) : Bool := isAlphabetic c || isNumeric c

end RingRelay.Text
