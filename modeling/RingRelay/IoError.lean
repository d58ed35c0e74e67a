/- What can go wrong on a stream or in the file system, and how it is worded.

   An error is one of the known kinds with the kind's own wording, a kind with a wording supplied by
   whoever raised it, or a refusal of the operating system, which carries its number. -/
namespace RingRelay

/-- The kinds of input and output errors. -/
inductive IoKind
  | notFound
  | permissionDenied
  | connectionRefused
  | connectionReset
  | connectionAborted
  | notConnected
  | brokenPipe
  | alreadyExists
  | wouldBlock
  | notADirectory
  | isADirectory
  | storageFull
  | invalidFilename
  | invalidInput
  | invalidData
  | timedOut
  | writeZero
  | interrupted
  | unsupported
  | unexpectedEof
  | outOfMemory
  | other
  deriving DecidableEq, Repr

/-- The wording of a kind when nothing more is known. -/
def IoKind.text : IoKind → String
  | .notFound => "entity not found"
  | .permissionDenied => "permission denied"
  | .connectionRefused => "connection refused"
  | .connectionReset => "connection reset"
  | .connectionAborted => "connection aborted"
  | .notConnected => "not connected"
  | .brokenPipe => "broken pipe"
  | .alreadyExists => "entity already exists"
  | .wouldBlock => "operation would block"
  | .notADirectory => "not a directory"
  | .isADirectory => "is a directory"
  | .storageFull => "no storage space"
  | .invalidFilename => "invalid filename"
  | .invalidInput => "invalid input parameter"
  | .invalidData => "invalid data"
  | .timedOut => "timed out"
  | .writeZero => "write zero"
  | .interrupted => "operation interrupted"
  | .unsupported => "unsupported"
  | .unexpectedEof => "unexpected end of file"
  | .outOfMemory => "out of memory"
  | .other => "other error"

/-- The refusals of the operating system that a file operation can meet here. -/
inductive SystemRefusal
  | noEntry
  | permissionDenied
  | fileExists
  | notADirectory
  | isADirectory
  | noSpace
  | nameTooLong
  deriving DecidableEq, Repr

namespace SystemRefusal

/-- The number the operating system gives the refusal. -/
def number : SystemRefusal → Nat
  | .noEntry => 2
  | .permissionDenied => 13
  | .fileExists => 17
  | .notADirectory => 20
  | .isADirectory => 21
  | .noSpace => 28
  | .nameTooLong => 36

def kind : SystemRefusal → IoKind
  | .noEntry => .notFound
  | .permissionDenied => .permissionDenied
  | .fileExists => .alreadyExists
  | .notADirectory => .notADirectory
  | .isADirectory => .isADirectory
  | .noSpace => .storageFull
  | .nameTooLong => .invalidFilename

/-- The operating system's own wording, without the number. -/
def text : SystemRefusal → String
  | .noEntry => "No such file or directory"
  | .permissionDenied => "Permission denied"
  | .fileExists => "File exists"
  | .notADirectory => "Not a directory"
  | .isADirectory => "Is a directory"
  | .noSpace => "No space left on device"
  | .nameTooLong => "File name too long"

end SystemRefusal

/-- An input or output error. -/
inductive IoError
  | plain (kind : IoKind)
  | described (kind : IoKind) (text : String)
  | system (refusal : SystemRefusal)
  deriving DecidableEq, Repr

namespace IoError

def kind : IoError → IoKind
  | plain kind => kind
  | described kind _ => kind
  | system refusal => refusal.kind

/-- The one-line text of the error. -/
def message : IoError → String
  | plain kind => kind.text
  | described _ text => text
  | system refusal => s!"{refusal.text} (os error {refusal.number})"

/-- The error for an endpoint that reports more bytes than its buffer holds. -/
def overReported (reported room : Nat) : IoError :=
  .described .invalidData s!"endpoint reported {reported} bytes for a {room} byte buffer"

/-- The error for a file that should be text and is not. -/
def notUtf8 : IoError := .described .invalidData "stream did not contain valid UTF-8"

/-- The error for a path that holds a zero byte, which no file name can. -/
def nulInPath : IoError :=
  .described .invalidInput "file name contained an unexpected NUL byte"

end IoError

end RingRelay
