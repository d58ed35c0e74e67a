import RingRelay.Endpoint.Basic
/- Endpoints that act out a script.

   A script is a list of steps, one for each call. The same script can be acted out by an endpoint
   that answers every call and by one that may not be ready: the first passes over the steps that
   say "not ready", the second gives each of them as an answer of its own. -/
namespace RingRelay

/-- One call of a scripted reader. -/
inductive ReadStep
  /-- Delivers these bytes; those that find no room stay for the next call. -/
  | data (bytes : List UInt8)
  | eof
  | fail (cause : IoError)
  /-- Fills up to `count` cells with the byte `filler` and reports `count`. -/
  | report (count : Nat)
  | notReady

/-- The steps of a reader. When they are used up every call is at the end of the stream. -/
abbrev ReadScript := List ReadStep

namespace ReadScript

/-- The byte that a reader with a made-up report leaves in the cells. -/
def filler : UInt8 := 0x72

/-- The answer at the end of the stream. -/
def atEnd : ReadAnswer := ⟨[], .ok 0⟩

/-- The answer that delivers exactly these bytes. -/
def delivery (bytes : List UInt8) : ReadAnswer := ⟨bytes.map some, .ok bytes.length⟩

/-- The part of a data step that finds no room, as the steps that are left of it. -/
def putBack (bytes : List UInt8) : ReadScript := if bytes.isEmpty then [] else [.data bytes]

/-- A call of a reader that answers at once. Its reports are as the script has them. -/
def read : ReadScript → Nat → ReadAnswer × ReadScript
  | [], _ => (atEnd, [])
  | .notReady :: rest, room => read rest room
  | .data bytes :: rest, room => (delivery (bytes.take room), putBack (bytes.drop room) ++ rest)
  | .eof :: rest, _ => (atEnd, rest)
  | .fail cause :: rest, _ => (⟨[], .error cause⟩, rest)
  | .report count :: rest, room =>
    (⟨List.replicate (min count room) (some filler), .ok count⟩, rest)

/-- A call of a reader that may not be ready. It cannot report more than the slice holds. -/
def poll : ReadScript → Nat → Poll ReadAnswer × ReadScript
  | [], _ => (.ready atEnd, [])
  | .notReady :: rest, _ => (.pending, rest)
  | .data bytes :: rest, room =>
    (.ready (delivery (bytes.take room)), putBack (bytes.drop room) ++ rest)
  | .eof :: rest, _ => (.ready atEnd, rest)
  | .fail cause :: rest, _ => (.ready ⟨[], .error cause⟩, rest)
  | .report count :: rest, room =>
    (.ready (delivery (List.replicate (min count room) filler)), rest)

/-- The number of "not ready" steps before the next answer. -/
def patience : ReadScript → Nat
  | .notReady :: rest => patience rest + 1
  | _ => 0

/-- A bound on the calls that can still deliver: every byte and every other step counts. -/
def left : ReadScript → Nat
  | [] => 0
  | .data bytes :: rest => bytes.length + 1 + left rest
  | _ :: rest => 1 + left rest

theorem patience_poll_lt {script later : ReadScript} {room : Nat}
    (h : poll script room = (.pending, later)) : patience later < patience script := by
  match script with
  | [] => simp [poll] at h
  | .notReady :: rest =>
    obtain rfl : rest = later := by simpa [poll] using h
    simp [patience]
  | .data _ :: _ => simp [poll] at h
  | .eof :: _ => simp [poll] at h
  | .fail _ :: _ => simp [poll] at h
  | .report _ :: _ => simp [poll] at h

theorem left_putBack_append (bytes : List UInt8) (rest : ReadScript) :
    left (putBack bytes ++ rest) ≤ bytes.length + 1 + left rest := by
  unfold putBack
  split
  · simp
  · simp [left]

theorem left_poll_le (script : ReadScript) (room : Nat) :
    left (poll script room).2 ≤ left script := by
  match script with
  | [] => simp [poll, left]
  | .notReady :: rest => simp [poll, left]
  | .data bytes :: rest =>
    have h := left_putBack_append (bytes.drop room) rest
    simp only [poll, left, List.length_drop] at h ⊢
    omega
  | .eof :: rest => simp [poll, left]
  | .fail _ :: rest => simp [poll, left]
  | .report _ :: rest => simp [poll, left]

/-- A call that delivers something uses up some of the script. -/
theorem left_poll_lt {script : ReadScript} {room n : Nat} {answer : ReadAnswer}
    (h : (poll script room).1 = .ready answer) (hn : answer.result = .ok n) (hpos : 0 < n) :
    left (poll script room).2 < left script := by
  match script with
  | [] =>
    obtain rfl : atEnd = answer := by simpa [poll] using h
    simp [atEnd] at hn
    omega
  | .notReady :: rest => simp [poll, left]
  | .data bytes :: rest =>
    obtain rfl : delivery (bytes.take room) = answer := by simpa [poll] using h
    have hlen : min room bytes.length = n := by simpa [delivery] using hn
    have hle := left_putBack_append (bytes.drop room) rest
    simp only [poll, left, List.length_drop] at hle ⊢
    omega
  | .eof :: rest => simp [poll, left]
  | .fail _ :: rest => simp [poll, left]
  | .report _ :: rest => simp [poll, left]

/-- The scripted reader that answers every call. -/
def reader : Reader ReadScript := ⟨read⟩

/-- The scripted reader that may not be ready. -/
def waitingReader : WaitingReader ReadScript := ⟨poll, patience, patience_poll_lt⟩

/-- Every script comes to its end. -/
def ends : waitingReader.Ends := ⟨left, left_poll_le, left_poll_lt⟩

end ReadScript

/-- One write call of a scripted writer. -/
inductive WriteStep
  /-- Takes up to `count` bytes. -/
  | accept (count : Nat)
  | fail (cause : IoError)
  /-- Reports `count`, whatever was offered. -/
  | report (count : Nat)
  | notReady

/-- The steps of a writer, what it does when they are used up, and the failures of its flushes. -/
structure WriteScript where
  steps : List WriteStep
  /-- The most that a call takes after the last step; without it a call takes everything. -/
  atMost : Option Nat
  /-- For each flush its failure, if it fails. Flushes after the last of these succeed. -/
  flushes : List (Option IoError)

namespace WriteScript

/-- The report of a call that takes up to `limit` of `offered` bytes. -/
def taken (limit : Option Nat) (offered : List UInt8) : Nat :=
  match limit with
  | none => offered.length
  | some limit => min limit offered.length

/-- The answer to a write and the steps that remain, for a writer that answers at once. -/
def answer (atMost : Option Nat) (offered : List UInt8) :
    List WriteStep → WriteAnswer × List WriteStep
  | [] => (.ok (taken atMost offered), [])
  | .notReady :: rest => answer atMost offered rest
  | .accept count :: rest => (.ok (taken (some count) offered), rest)
  | .fail cause :: rest => (.error cause, rest)
  | .report count :: rest => (.ok count, rest)

/-- A call of a writer that answers at once. -/
def write (script : WriteScript) (offered : List UInt8) : WriteAnswer × WriteScript :=
  let reply := answer script.atMost offered script.steps
  (reply.1, { script with steps := reply.2 })

/-- A call of a writer that may not be ready. -/
def poll (script : WriteScript) (offered : List UInt8) : Poll WriteAnswer × WriteScript :=
  match script.steps with
  | [] => (.ready (.ok (taken script.atMost offered)), script)
  | .notReady :: rest => (.pending, { script with steps := rest })
  | .accept count :: rest =>
    (.ready (.ok (taken (some count) offered)), { script with steps := rest })
  | .fail cause :: rest => (.ready (.error cause), { script with steps := rest })
  | .report count :: rest => (.ready (.ok count), { script with steps := rest })

def flush (script : WriteScript) : FlushAnswer × WriteScript :=
  match script.flushes with
  | [] => (.ok (), script)
  | none :: rest => (.ok (), { script with flushes := rest })
  | some cause :: rest => (.error cause, { script with flushes := rest })

/-- The number of "not ready" steps before the next answer. -/
def leadingPauses : List WriteStep → Nat
  | .notReady :: rest => leadingPauses rest + 1
  | _ => 0

theorem leadingPauses_poll_lt {script later : WriteScript} {offered : List UInt8}
    (h : poll script offered = (.pending, later)) :
    leadingPauses later.steps < leadingPauses script.steps := by
  unfold poll at h
  split at h <;> simp at h
  rename_i hs
  subst h
  simp [hs, leadingPauses]

/-- The scripted writer that answers every call. -/
def writer : Writer WriteScript := ⟨write, flush⟩

/-- The scripted writer that may not be ready. -/
def waitingWriter : WaitingWriter WriteScript :=
  ⟨poll, flush, fun script => leadingPauses script.steps, leadingPauses_poll_lt⟩

end WriteScript

end RingRelay
