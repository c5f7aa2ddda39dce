import Wiretap.Sink

/-! Destinations: what bytes are written to in the end, and the sinks over one. A destination answers
from a script, one answer for each call of its kind, and succeeds when the script is used up. It may
take a write in part, and keeps a journal of what it saw.

A writer sink hands bytes over in as many writes as it takes: it goes on after a part was accepted,
repeats a write that was interrupted, and fails when nothing of a rest is accepted. Closing it flushes
the destination once and lets it go. A direct sink hands over every write in one call; it is closed
from its first close on, also when that fails. -/

namespace Wiretap

/-- How much of a write a destination accepts. -/
inductive Acceptance
  | all
  | atMost (n : Nat)
  | fails (e : IoError)
  | panics
deriving DecidableEq, Repr

/-- What a destination saw. A call that panics leaves no mark. -/
inductive Mark
  | accepted (bytes : Bytes)
  | flushed
  | closed
  | writeFailed
  | flushFailed
  | closeFailed
  | interrupted
deriving DecidableEq, Repr

def Mark.bytes : Mark → Bytes
  | accepted bs => bs
  | _ => []

/-- The journal has its newest mark first. -/
structure Destination where
  writes : List Acceptance := []
  flushes : List Outcome := []
  closes : List Outcome := []
  journal : List Mark := []
deriving DecidableEq, Repr

namespace Destination

/-- Nothing of a rest was accepted. -/
def stalled : IoError := .told .writeZero "failed to write whole buffer"

/-- Writes until all bytes are accepted or the script ends it: the outcome, the rest of the script and
the journal, which goes on from `marks`. -/
def writeLoop : List Acceptance → Bytes → List Mark → Outcome × List Acceptance × List Mark
  | script, [], marks => (.ok, script, marks)
  | [], bytes, marks => (.ok, [], .accepted bytes :: marks)
  | .all :: script, bytes, marks => (.ok, script, .accepted bytes :: marks)
  | .atMost n :: script, bytes, marks =>
    if n = 0 then (.failed stalled, script, .accepted [] :: marks)
    else writeLoop script (bytes.drop n) (.accepted (bytes.take n) :: marks)
  | .fails e :: script, bytes, marks =>
    if e.kind = .interrupted then writeLoop script bytes (.interrupted :: marks)
    else (.failed e, script, .writeFailed :: marks)
  | .panics :: script, _, marks => (.panicked, script, marks)

def writeAll (bytes : Bytes) (d : Destination) : Outcome × Destination :=
  match writeLoop d.writes bytes d.journal with
  | (o, script, marks) => (o, { d with writes := script, journal := marks })

/-- One call for all bytes, taken whole or not at all. -/
def writeOnce (bytes : Bytes) (d : Destination) : Outcome × Destination :=
  match d.writes with
  | [] => (.ok, { d with journal := .accepted bytes :: d.journal })
  | .fails e :: script => (.failed e, { d with writes := script, journal := .writeFailed :: d.journal })
  | .panics :: script => (.panicked, { d with writes := script })
  | _ :: script => (.ok, { d with writes := script, journal := .accepted bytes :: d.journal })

def flush (d : Destination) : Outcome × Destination :=
  match d.flushes with
  | [] => (.ok, { d with journal := .flushed :: d.journal })
  | .ok :: script => (.ok, { d with flushes := script, journal := .flushed :: d.journal })
  | .failed e :: script =>
    (.failed e, { d with flushes := script, journal := .flushFailed :: d.journal })
  | .panicked :: script => (.panicked, { d with flushes := script })

def close (d : Destination) : Outcome × Destination :=
  match d.closes with
  | [] => (.ok, { d with journal := .closed :: d.journal })
  | .ok :: script => (.ok, { d with closes := script, journal := .closed :: d.journal })
  | .failed e :: script =>
    (.failed e, { d with closes := script, journal := .closeFailed :: d.journal })
  | .panicked :: script => (.panicked, { d with closes := script })

/-- All bytes accepted so far. -/
def contents (d : Destination) : Bytes := (d.journal.reverse.map Mark.bytes).flatten

end Destination

/-- A sink over a destination that may take writes in part. -/
structure WriterSink where
  destination : Destination
  isOpen : Bool := true
deriving DecidableEq, Repr

namespace WriterSink

/-- The sink was closed before. -/
def closedError : IoError := .told .notConnected "pcap sink is closed"

def call : SinkCall → WriterSink → Outcome × WriterSink
  | .write bytes, w =>
    if w.isOpen then
      match w.destination.writeAll bytes with
      | (o, d) => (o, { w with destination := d })
    else (.failed closedError, w)
  | .flush, w =>
    if w.isOpen then
      match w.destination.flush with
      | (o, d) => (o, { w with destination := d })
    else (.failed closedError, w)
  | .close, w =>
    if w.isOpen then
      match w.destination.flush with
      | (o, d) => (o, ⟨d, false⟩)
    else (.ok, w)

end WriterSink

/-- A sink that hands every call on as it is; `flushes` tells whether it has a flush of its own. -/
structure DirectSink where
  destination : Destination
  flushes : Bool := true
  isClosed : Bool := false
deriving DecidableEq, Repr

namespace DirectSink

/-- The sink was closed before. -/
def closedError : IoError := .told .notConnected "closed"

def call : SinkCall → DirectSink → Outcome × DirectSink
  | .write bytes, w =>
    if w.isClosed then
      (.failed closedError,
        { w with destination.journal := .writeFailed :: w.destination.journal })
    else
      match w.destination.writeOnce bytes with
      | (o, d) => (o, { w with destination := d })
  | .flush, w =>
    if w.flushes then
      match w.destination.flush with
      | (o, d) => (o, { w with destination := d })
    else (.ok, w)
  | .close, w =>
    match w.destination.close with
    | (.panicked, d) => (.panicked, { w with destination := d })
    | (o, d) => (o, { w with destination := d, isClosed := true })

end DirectSink

/-- A sink of either kind. -/
inductive Device
  | writer (w : WriterSink)
  | direct (w : DirectSink)
deriving DecidableEq, Repr

namespace Device

def call (c : SinkCall) : Device → Outcome × Device
  | writer w => match w.call c with | (o, w) => (o, writer w)
  | direct w => match w.call c with | (o, w) => (o, direct w)

def destination : Device → Destination
  | writer w => w.destination
  | direct w => w.destination

/-- The device with its journal put away. -/
def clearJournal : Device → Device
  | writer w => writer { w with destination.journal := [] }
  | direct w => direct { w with destination.journal := [] }

end Device

def Sink.device : Sink Device where
  call := Device.call
  release w := w

end Wiretap
