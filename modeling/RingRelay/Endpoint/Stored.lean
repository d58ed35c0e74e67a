import RingRelay.Endpoint.Basic
import RingRelay.Text.Utf8
/- Endpoints that are always ready and do at once what they are called for.

   A stored source yields as many bytes as are asked for while it has them, and then is at the end
   of its stream for good; an endless one yields zero bytes and has no end, and one that cannot be
   read fails every call. A stored sink takes everything it is offered. On a device without space
   the bytes are lost, and the next call of the sink, a write or a flush, fails for it. -/
namespace RingRelay

inductive StoredSource
  | holding (rest : Bytes)
  | endless
  | unreadable (cause : IoError)

namespace StoredSource

def poll : StoredSource → Nat → Poll ReadAnswer × StoredSource
  | holding rest, room =>
    (.ready ⟨(rest.take room).map some, .ok (rest.take room).length⟩, holding (rest.drop room))
  | endless, room => (.ready ⟨List.replicate room (some 0), .ok room⟩, endless)
  | unreadable cause, _ => (.ready ⟨[], .error cause⟩, unreadable cause)

/-- The reader of a stored source, which is always ready. -/
def reader : WaitingReader StoredSource where
  poll := poll
  patience _ := 0
  patience_lt {s room s'} h := by cases s <;> simp [poll] at h

end StoredSource

/-- What becomes of the bytes that a sink takes. -/
inductive SinkKind
  | stored
  | discarded
  | noSpace
  deriving DecidableEq, Repr

structure StoredSink where
  kind : SinkKind
  taken : Array UInt8 := #[]
  /-- Whether bytes were lost and nobody has been told. -/
  lost : Bool := false

namespace StoredSink

/-- The error for lost bytes. -/
def noSpace : IoError := .system .noSpace

def write (sink : StoredSink) (offered : Bytes) : WriteAnswer × StoredSink :=
  if sink.lost then (.error noSpace, { sink with lost := false })
  else
    match sink.kind with
    | .stored => (.ok offered.length, { sink with taken := sink.taken ++ offered })
    | .discarded => (.ok offered.length, sink)
    | .noSpace => (.ok offered.length, { sink with lost := true })

def flush (sink : StoredSink) : FlushAnswer × StoredSink :=
  if sink.lost then (.error noSpace, { sink with lost := false }) else (.ok (), sink)

/-- The writer of a stored sink, which is always ready. -/
def writer : WaitingWriter StoredSink where
  poll sink offered := let reply := sink.write offered; (.ready reply.1, reply.2)
  flush := flush
  patience _ := 0
  patience_lt h := by simp at h

end StoredSink

end RingRelay
