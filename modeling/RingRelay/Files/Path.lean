import RingRelay.Text.Utf8
/- Paths: bytes that name a file by the directories on the way to it, with slashes between them. -/
namespace RingRelay

/-- A path as it is written. It need not be text. -/
abbrev Path := Bytes

/-- The name of a file in its directory. -/
abbrev FileName := Bytes

namespace Path

def slash : UInt8 := 0x2f

/-- The pieces between the slashes of a path, empty ones included. -/
def pieces : Path → List FileName
  | [] => [[]]
  | b :: bs => if b = slash then [] :: pieces bs else (pieces bs).modifyHead (b :: ·)

def isAbsolute (path : Path) : Bool := path.head? == some slash

/-- The path that leads to `path` from the directory `base`. An absolute path needs no base. -/
def join (base path : Path) : Path :=
  if isAbsolute path || base.isEmpty then path
  else if base.getLast? = some slash then base ++ path
  else base ++ slash :: path

/-- The path as a text, with a replacement character for what is not text. -/
def display (path : Path) : String := Utf8.decodeLossy path

end Path

end RingRelay
