import Wiretap.CaptureFile
import Wiretap.IoError

/-! Sinks: where encoded captures go. A sink is append-only and takes three calls: write these bytes
in full or fail, flush, close. What a call comes to is the sink's affair, and a call may also break
off without an answer, as a panic does. A sink is given by its calls on a state of any type, so that a
destination, a sink shared by several sessions and a list of recorded calls are all sinks. -/

namespace Wiretap

/-- What a call came to. -/
inductive Outcome
  | ok
  | failed (e : IoError)
  | panicked
deriving DecidableEq, Repr

inductive SinkCall
  | write (bytes : Bytes)
  | flush
  | close
deriving DecidableEq, Repr

/-- A sink with states of type `σ`. Letting go of it makes no call. -/
structure Sink (σ : Type) where
  call : SinkCall → σ → Outcome × σ
  release : σ → σ

namespace Sink

variable {σ : Type} (sink : Sink σ)

/-- Writes, and flushes if that went well. -/
def append (bytes : Bytes) (w : σ) : Outcome × σ :=
  match sink.call (.write bytes) w with
  | (.ok, w) => sink.call .flush w
  | r => r

/-- Begins a capture file. -/
def writeHeader (w : σ) : Outcome × σ := sink.call (.write CaptureFile.header) w

end Sink

/-- Never fails and keeps the calls, the last one first. -/
def Sink.recording : Sink (List SinkCall) where
  call c w := (.ok, c :: w)
  release w := w

/-- The calls made so far and the answers still to be given: a call past the last answer succeeds. -/
structure Rehearsed where
  calls : List SinkCall := []
  answers : List Outcome := []
deriving DecidableEq, Repr

/-- Gives prepared answers and keeps the calls, the last one first. -/
def Sink.rehearsed : Sink Rehearsed where
  call c w :=
    match w.answers with
    | [] => (.ok, { w with calls := c :: w.calls })
    | o :: rest => (o, ⟨c :: w.calls, rest⟩)
  release w := w

end Wiretap
