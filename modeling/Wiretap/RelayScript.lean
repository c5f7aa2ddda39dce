import Wiretap.Destination
import Wiretap.Relay

/-! Relays whose streams follow a script: one order for what both streams bring and for what is asked of
the relay and of its streams meanwhile. A pump deals with each read in full before the script goes on,
a pump that is done is noticed at once, and streams that the script leaves open end after it. -/

namespace Wiretap

inductive Request
  | pause
  | resume
  | close
deriving DecidableEq, Repr

def Request.move : Request → Move
  | pause => .pause
  | resume => .resume
  | close => .close

inductive Cue
  | data (s : Stream) (bytes : ByteArray)
  | failure (s : Stream) (e : IoError)
  | request (r : Request)
  | limit (s : Stream) (n : Nat)
  | writeFailure (s : Stream) (e : IoError)
  | shutdownFailure (s : Stream)

/-- What a stream does with writes: it takes a number of bytes at a time, or fails. -/
structure Outlet where
  limit : Option Nat := none
  broken : Option IoError := none

/-- The answer of the stream to a write of so many bytes. -/
def Outlet.answer (o : Outlet) (length : Nat) : Except IoError Nat :=
  match o.broken with
  | some e => .error e
  | none => .ok (o.limit.getD length)

/-- What is seen of a scripted relay from outside. -/
inductive Sight
  | sink (m : Mark)
  | stream (t : Traffic)
  | cue (c : Cue) (result : Option Result) (phase : Phase) (forwarded : Tally)

/-- A relay with its streams, and what was seen and noted so far, newest first. -/
structure Stage where
  relay : Relay Device
  client : Outlet := {}
  service : Outlet := {}
  sights : List Sight := []
  notes : List RelayNote := []

namespace Stage

def outlet (st : Stage) : Stream → Outlet
  | .client => st.client
  | .service => st.service

def setOutlet (st : Stage) (o : Outlet) : Stream → Stage
  | .client => { st with client := o }
  | .service => { st with service := o }

/-- The marks on the destination are taken over and its journal put away. What a pump reads comes
before what the sink sees of it. -/
def take (st : Stage) (reply : RelayReply Device) : Stage :=
  let device := reply.relay.sink
  let marks := device.destination.journal.reverse.map Sight.sink
  let traffic := reply.traffic.map Sight.stream
  { st with
    relay := { reply.relay with sink := device.clearJournal }
    sights := (traffic.take 1 ++ marks ++ traffic.drop 1).reverse ++ st.sights
    notes := reply.notes.reverse ++ st.notes }

variable (now : Timestamp)

def move (st : Stage) (m : Move) : Stage := st.take (st.relay.step Sink.device now m)

/-- Writes until the pump has sent its bytes or failed; each write sends at least one. -/
def deliver (d : Direction) : (most : Nat) → Stage → Stage
  | 0, st => st
  | most + 1, st =>
    match st.relay.pump d with
    | .sending rest =>
      deliver d most (st.move now (.write d ((st.outlet d.target).answer rest.size)))
    | _ => st

/-- One read, with all that follows from it. -/
def read (d : Direction) (got : Except IoError ByteArray) (st : Stage) : Stage :=
  let st := st.move now (.read d got)
  let st := match got with
    | .ok data => st.deliver now d data.size
    | .error _ => st
  st.move now (.join d)

/-- The relay as seen when a cue was carried out. -/
def see (c : Cue) (result : Option Result) (st : Stage) : Stage :=
  { st with
    sights := .cue c result st.relay.session.phase st.relay.forwarded :: st.sights }

/-- Carries out a cue, unless the relay is over or the pump of the stream is. -/
def follow (st : Stage) (c : Cue) : Stage :=
  if st.relay.isOver then st
  else
    match c with
    | .data s bytes =>
      (cut readSize bytes).foldl (fun st part => st.read now s.direction (.ok part)) st
    | .failure s e => st.read now s.direction (.error e)
    | .request .close =>
      let (result, reply) := st.relay.closeCapture Sink.device now
      (st.take reply).see c (some result)
    | .request r => (st.move now r.move).see c none
    | .limit s n => (st.setOutlet { st.outlet s with limit := some n } s).see c none
    | .writeFailure s e => (st.setOutlet { st.outlet s with broken := some e } s).see c none
    | .shutdownFailure _ => st.see c none

/-- Reads the end of a stream that is still open. -/
def endOpen (d : Direction) (st : Stage) : Stage :=
  match st.relay.pump d with
  | .reading => st.read now d (.ok .empty)
  | _ => st

end Stage

/-- A scripted relay from its session's beginning to a second close of the capture. -/
structure Performance where
  before : Phase
  result : NetworkResult
  after : Phase
  forwarded : Tally
  closeAgain : Result
  sights : List Sight
  notes : List RelayNote

/-- Runs a relay on a session of its own. -/
def perform (now : Timestamp) (options : Options) (device : Device) (connection : Connection)
    (cues : List Cue) : Performance :=
  let session := Session.create options
  let reply := Relay.start Sink.device now connection session device
  let created : Stage :=
    { relay := { session, sink := device }, notes := [.session (Session.createdNote options)] }
  let opened := created.take reply
  let played := cues.foldl (Stage.follow now) opened
  let drained := (played.endOpen now .inbound).endOpen now .outbound
  let (result, reply) := drained.relay.finish Sink.device now
  let finished := drained.take reply
  let (again, reply) := finished.relay.closeCapture Sink.device now
  let closed := finished.take reply
  { before := session.phase
    result
    after := finished.relay.session.phase
    forwarded := finished.relay.forwarded
    closeAgain := again
    sights := closed.sights.reverse
    notes := closed.notes.reverse }

end Wiretap
