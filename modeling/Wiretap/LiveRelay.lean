import Std.Async.TCP
import Std.Sync.CancellationToken
import Wiretap.LiveSystem
import Wiretap.Relay

/-! A relay between two sockets. The relay itself is a value that the two pumps take in turns; a pump
waits for its sockets, tells the relay what came of it, and does what the relay then says. The calls
that a step makes on the capture file are made one after another: the step is worked out with the
outcomes so far, and again with one more when the next call is done. -/

namespace Wiretap

open Std.Async (Async AsyncTask Selectable Selector)
open Std.Async.TCP

structure LiveRelay where
  id : String
  file : LiveFile
  client : Socket.Client
  service : Socket.Client
  state : Std.Mutex (Relay Rehearsed)
  stopped : Std.CancellationToken

namespace LiveRelay

def socket (l : LiveRelay) : Stream → Socket.Client
  | .client => l.client
  | .service => l.service

/-- The outcomes of the calls of a step, given the calls that it makes when some outcomes are known. -/
partial def outcomes (file : LiveFile) (calls : List Outcome → List SinkCall)
    (known : List Outcome) : BaseIO (List Outcome) := do
  match (calls known).drop known.length with
  | [] => return known
  | c :: _ => outcomes file calls (known ++ [← file.perform c])

/-- Takes a step and shows what the log is told. -/
def take {α : Type} (l : LiveRelay)
    (step : Timestamp → Relay Rehearsed → α × RelayReply Rehearsed) : IO (α × Relay Rehearsed) := do
  let now ← currentTime
  let (a, reply) ← l.state.atomically do
    let r ← get
    let after (answers : List Outcome) := step now { r with sink := { answers } }
    let known ← outcomes l.file (fun answers => (after answers).2.relay.sink.calls.reverse) []
    set (after known).2.relay
    return after known
  for n in reply.notes do showLine (n.line l.id)
  return (a, reply.relay)

def move (l : LiveRelay) (m : Move) : IO (Relay Rehearsed) := do
  return (← l.take fun now r => ((), r.step Sink.rehearsed now m)).2

/-- Waits for bytes of a socket, none at its end. A wait that is given up loses what it was for. -/
def incoming (s : Socket.Client) : Selector (Except IoError ByteArray) where
  tryFn := return none
  registerFn waiter := Std.Async.background (t := AsyncTask) do
    let got ← try
        pure (.ok ((← s.recv? readSize.toUInt64).getD .empty))
      catch e => pure (.error (IoError.ofSystem e))
    waiter.race (return ()) fun promise => promise.resolve (.ok got)
  unregisterFn := (s.recvSelector readSize.toUInt64).unregisterFn

/-- What the pump of a direction reads next, unless it is stopped first. -/
def read (l : LiveRelay) (d : Direction) : Async (Option (Except IoError ByteArray)) :=
  Selectable.one #[
    .case (incoming (l.socket d.source)) fun got => return some got,
    .case l.stopped.selector fun () => return none]

/-- Does what a pump is to do next in its state: send, shut down its writer, or stop the other. -/
def act (l : LiveRelay) (d : Direction) (r : Relay Rehearsed) : Async (Relay Rehearsed) := do
  match r.pump d with
  | .sending rest =>
    try
      (l.socket d.target).send rest
      l.move (.write d (.ok rest.size))
    catch e => l.move (.write d (.error (IoError.ofSystem e)))
  | .ended =>
    try (l.socket d.target).shutdown catch _ => pure ()
    l.move (.join d)
  | _ => return r

partial def pump (l : LiveRelay) (d : Direction) : Async Unit := do
  match ← l.read d with
  | none => return
  | some got =>
    let r ← l.act d (← l.move (.read d got))
    match r.pump d with
    | .reading => l.pump d
    | .failed _ =>
      let _ ← l.move (.join d)
      l.stopped.cancel
    | _ => return

/-- Relays between two sockets with a capture on a file, until both directions have ended. -/
def run (options : Options) (file : LiveFile) (client service : Socket.Client)
    (connection : Connection) : Async NetworkResult := do
  let session := Session.create options
  let state ← Std.Mutex.new ({ session, sink := {} } : Relay Rehearsed)
  let l : LiveRelay :=
    { id := options.id, file, client, service, state, stopped := ← Std.CancellationToken.new }
  let _ ← l.take fun now r => ((), Relay.start Sink.rehearsed now connection r.session r.sink)
  let _ ← Async.concurrently (l.pump .inbound) (l.pump .outbound)
  return (← l.take fun now r => r.finish Sink.rehearsed now).1

end LiveRelay

end Wiretap
