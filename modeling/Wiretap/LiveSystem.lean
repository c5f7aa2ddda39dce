import Std.Net.Addr
import Std.Sync.Mutex
import Std.Time.DateTime.Timestamp
import Wiretap.Address
import Wiretap.Calendar
import Wiretap.Destination

/-! The system around the program: its failures, addresses, clock and log, and capture files that are
open. Nothing is decided here. -/

namespace Wiretap

/-- The number that the system gave a failure. -/
def systemNumber? : IO.Error → Option UInt32
  | .alreadyExists _ n _ | .invalidArgument _ n _ | .permissionDenied _ n _
  | .resourceExhausted _ n _ | .inappropriateType _ n _ | .noSuchThing _ n _
  | .noFileOrDirectory _ n _ | .interrupted _ n _ => some n
  | .otherError n _ | .resourceBusy n _ | .resourceVanished n _ | .unsupportedOperation n _
  | .hardwareFault n _ | .unsatisfiedConstraints n _ | .illegalOperation n _ | .protocolError n _
  | .timeExpired n _ => some n
  | .unexpectedEof | .userError _ => none

/-- A failure of the system; network calls count its numbers downwards from zero. -/
def IoError.ofSystem (e : IO.Error) : IoError :=
  let known? := (systemNumber? e).bind fun n =>
    (SystemError.ofNumber? n.toNat).or (SystemError.ofNumber? (-n).toNat)
  match known? with
  | some e => .system e
  | none => .told .other e.toString

def attempt {α : Type} (act : IO α) : BaseIO (Except IoError α) := do
  return (← act.toBaseIO).mapError IoError.ofSystem

def SocketAddress.ofSystem : Std.Net.SocketAddress → SocketAddress
  | .v4 a =>
    let o := a.addr.octets
    .v4 ⟨o[0], o[1], o[2], o[3]⟩ a.port
  | .v6 a =>
    let s := a.addr.segments
    .v6 ⟨s[0], s[1], s[2], s[3], s[4], s[5], s[6], s[7]⟩ a.port 0

def SocketAddress.toSystem : SocketAddress → Std.Net.SocketAddress
  | .v4 ip port => .v4 ⟨.ofParts ip.a ip.b ip.c ip.d, port⟩
  | .v6 ip port _ => .v6 ⟨.ofParts ip.a ip.b ip.c ip.d ip.e ip.f ip.g ip.h, port⟩

def currentTime : IO Timestamp := do
  let t ← Std.Time.Timestamp.now
  let nanos := t.toNanosecondsSinceUnixEpoch.val
  return (Timestamp.ofUnix? (nanos / 1000000000) (nanos % 1000000000).toNat).getD .epoch

/-- Shows a line of the log if it is at least information. -/
def showLine (l : LogLine) : IO Unit := do
  if l.level.rank ≤ LogLevel.info.rank then IO.eprintln (l.text (← currentTime))

/-- A capture file that any number of sessions write to, one call at a time; none once it is closed. -/
abbrev LiveFile := Std.Mutex (Option IO.FS.Handle)

namespace LiveFile

/-- Creates a file, or empties the one there. -/
def create (path : String) : BaseIO (Except IoError LiveFile) :=
  attempt do Std.Mutex.new (some (← IO.FS.Handle.mk path .write))

def outcome (act : IO Unit) : BaseIO Outcome := do
  match ← attempt act with
  | .ok () => return .ok
  | .error e => return .failed e

/-- Closing flushes the file once and lets it go, as for any writer sink. -/
def perform (file : LiveFile) (c : SinkCall) : BaseIO Outcome :=
  file.atomically do
    match c, ← get with
    | .write bytes, some h => outcome (h.write ⟨bytes.toArray⟩)
    | .flush, some h => outcome h.flush
    | .close, some h =>
      set (none : Option IO.FS.Handle)
      outcome h.flush
    | .close, none => return .ok
    | _, none => return .failed WriterSink.closedError

end LiveFile

end Wiretap
