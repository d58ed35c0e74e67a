import RingRelay.Endpoint.Stored
import RingRelay.Files.Tree
/- The streams that a run relays between.

   How the standard streams, files and devices answer a read or a write is not for the program to
   say: a read may be short, a write may take a part, both may have to wait or may fail. So a run is
   given its streams. They say which endpoint a file is that has been opened, and which bytes have
   come through a sink. -/
namespace RingRelay

structure Streams (ρ ω : Type) where
  reader : WaitingReader ρ
  writer : WaitingWriter ω
  stdin : ρ
  stdout : ω
  /-- The source that an entry is once it has been opened. -/
  opened : Place → Entry → ρ
  /-- The sink that an entry is once it has been created or emptied. -/
  created : Place → Entry → ω
  /-- The bytes that have come through a sink to the end it leads to. Of those that it took some may
      still be on their way, or may never arrive. -/
  written : ω → Bytes

/-- The source that an entry is. -/
def StoredSource.ofEntry : Entry → StoredSource
  | .file content => .holding content
  | .directory => .unreadable (.system .isADirectory)
  | .nullDevice => .holding []
  | .fullDevice => .endless
  | .barred cause => .unreadable cause

/-- The sink that an entry is. -/
def StoredSink.ofEntry : Entry → StoredSink
  | .nullDevice => { kind := .discarded }
  | .fullDevice => { kind := .noSpace }
  | _ => { kind := .stored }

/-- Streams that never wait, with the bytes of the standard input. -/
def Streams.stored (stdin : Bytes) : Streams StoredSource StoredSink where
  reader := StoredSource.reader
  writer := StoredSink.writer
  stdin := .holding stdin
  stdout := { kind := .stored }
  opened _ := StoredSource.ofEntry
  created _ := StoredSink.ofEntry
  written sink := sink.taken.toList

end RingRelay
