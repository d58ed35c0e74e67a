import RingRelay.Text.Blank
import RingRelay.Text.Utf8
/- The environment variables that the program looks at. Their values are bytes; one that is not text
   counts as not set. -/
namespace RingRelay

structure Environment where
  /-- `HOME`: the home directory. -/
  home : Option Bytes := none
  /-- `USERPROFILE`: the home directory, if `HOME` gives none. -/
  userProfile : Option Bytes := none
  /-- `BYTERING_CAPACITY`: the capacity of the ring. -/
  capacity : Option Bytes := none
  /-- `BYTERING_LOG_LEVEL`: the events to log. -/
  logLevel : Option Bytes := none
  /-- `RUST_LOG`: the events to log, above all else that is said about them. -/
  logFilter : Option Bytes := none
  /-- `TMPDIR`: the directory for temporary files. -/
  temporary : Option Bytes := none

namespace Environment

/-- The value of a variable, if it is set to text. -/
def text? (value : Option Bytes) : Option String := do
  return String.ofList (← Utf8.decode? (← value))

/-- The value of a variable, if it is set to text that is not blank. -/
def telling? (value : Option Bytes) : Option String :=
  (text? value).filter fun text => !Text.isBlank text

/-- The home directory. -/
def homeDirectory? (env : Environment) : Option String :=
  (text? env.home).or (text? env.userProfile)

/-- The directory for temporary files. -/
def temporaryDirectory (env : Environment) : Bytes := env.temporary.getD (Utf8.encode "/tmp")

end Environment

end RingRelay
