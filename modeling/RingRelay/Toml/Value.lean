/- The values of a TOML document.

   A table is its keys with their values in the order in which they were written; the parser sees to
   it that no key occurs twice. Of floating point numbers and of dates and times only the written
   form is kept. -/
namespace RingRelay.Toml

inductive Value
  | string (text : String)
  | integer (value : Int)
  | float (literal : String)
  | boolean (value : Bool)
  | moment (literal : String)
  | array (items : List Value)
  | table (entries : List (String × Value))

abbrev Table := List (String × Value)

namespace Table

/-- The value of a key. -/
def get? (table : Table) (key : String) : Option Value := table.lookup key

end Table

end RingRelay.Toml
