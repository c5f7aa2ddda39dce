import Wiretap.Failure
import Wiretap.SessionNote
import Wiretap.Sink

/-! The capture session of one connection. It is told what happens on the connection and turns that
into calls on its sink:

* becoming active fixes the channel and, for TCP, records the handshake;
* a payload is counted, and recorded while the session is writing;
* closing records the end of a TCP connection, then closes a sink of its own or lets a shared one go.

The file header that a session owes to a sink of its own goes out with the first batch of records, or
when the session closes. A batch is one write and one flush. If either fails the session is closed at
once and lets its sink go, after trying to close it if it is its own.

A session does not hold its sink: each operation takes the state of the sink and gives it back, with
what the operation came to, the session after it and what it told the log. -/

namespace Wiretap

/-- Closed sessions have let their sink go. -/
structure Session where
  options : Options
  phase : Phase := .init
  holdsSink : Bool := true
  headerOwed : Bool
  channel : Option Channel := none
  initiator : Option Side := none
deriving DecidableEq, Repr

/-- What an operation came to. -/
inductive Result
  | done
  | failed (e : CaptureError)
  | panicked
deriving DecidableEq, Repr

structure Reply (σ : Type) where
  result : Result
  session : Session
  sink : σ
  notes : List Note := []

/-- Goes on if all is well so far. -/
def Reply.andThen {σ : Type} (r : Reply σ) (next : Session → σ → Reply σ) : Reply σ :=
  match r.result with
  | .done =>
    let after := next r.session r.sink
    { after with notes := r.notes ++ after.notes }
  | _ => r

/-- What happens on a connection, and what the owner of a session asks of it. -/
inductive Event
  | active (connection : Option Connection)
  | payload (d : Direction) (data : ByteArray)
  | datagram (d : Direction) (data : ByteArray) (peer : SocketAddress)
  | shutdown (d : Direction)
  | error
  | pause
  | resume
  | close

/-- The pieces of a payload that go into a segment each. -/
def pieces (data : ByteArray) : List ByteArray := cut maxTcpPayload data

/-- One piece with the headers of its segment and of the acknowledgment. -/
structure SentPiece where
  piece : ByteArray
  exchange : Exchange

namespace SentPiece

def records (now : Timestamp) (p : SentPiece) : List Record :=
  [.stamped now (p.exchange.data.packet p.piece.data.toList).frame,
    .stamped now (p.exchange.ack.packet []).frame]

def note (p : SentPiece) : Note :=
  .segment p.exchange.data.sender p.piece.size p.exchange.data.seq p.exchange.data.ack

end SentPiece

/-- The pieces are sent one after another. -/
def Flow.sendAll (f : Flow) (d : Direction) : List ByteArray → List SentPiece × Flow
  | [] => ([], f)
  | p :: ps =>
    let (exchange, f) := f.send d (UInt32.ofNat p.size)
    let (sent, f) := f.sendAll d ps
    (⟨p, exchange⟩ :: sent, f)

/-- Segments without payload as records. -/
def bareRecords (now : Timestamp) (segments : List Segment) : List Record :=
  segments.map fun s => .stamped now (s.packet []).frame

namespace Session

/-- A session that nothing has happened to yet. -/
def create (options : Options) : Session :=
  { options, headerOwed := !options.shared && options.fileHeader }

def createdNote (options : Options) : Note := .created options.shared options.forced.isSome

def isWriting (s : Session) : Bool := s.phase == .writing

def protocol? (s : Session) : Option Protocol := s.channel.map Channel.protocol

def flow? (s : Session) : Option Flow := s.channel.bind Channel.flow?

/-- The side that opens the closing sequence. -/
def closeInitiator (s : Session) : Side := s.initiator.getD .client

/-- The session with its sink let go and nothing more to do. -/
def ended (s : Session) : Session := { s with phase := .closed, holdsSink := false }

section

variable {σ : Type} (sink : Sink σ)

/-- Nothing was asked of the sink. -/
def quiet (s : Session) (w : σ) (notes : List Note) : Reply σ := ⟨.done, s, w, notes⟩

/-- Records a batch, the owed file header before it. -/
def writeBatch (batch : List Record) (s : Session) (w : σ) : Reply σ :=
  if s.holdsSink then
    let front := if s.headerOwed then CaptureFile.header else []
    match sink.append (front ++ CaptureFile.encode batch) w with
    | (.ok, w) => ⟨.done, { s with headerOwed := false }, w, []⟩
    | (.panicked, w) => ⟨.panicked, s, w, []⟩
    | (.failed e, w) =>
      if s.options.shared then ⟨.failed (.write e), s.ended, sink.release w, [.writeFailed e]⟩
      else
        match sink.call .close w with
        | (.ok, w) => ⟨.failed (.write e), s.ended, sink.release w, [.writeFailed e]⟩
        | (.failed e', w) =>
          ⟨.failed (.write e), s.ended, sink.release w, [.writeFailed e, .closeFailed e']⟩
        | (.panicked, w) => ⟨.panicked, s.ended, sink.release w, [.writeFailed e]⟩
  else s.quiet w []

/-- Writes the file header if it is still owed. -/
def settleHeader (s : Session) (w : σ) : Outcome × σ :=
  if s.headerOwed then sink.append CaptureFile.header w else (.ok, w)

/-- Closes the session. A sink of its own gets the header that is still owed, so that it is a readable
capture in any case, and is closed; a shared one is only let go. -/
def finish (s : Session) (w : σ) : Reply σ :=
  if s.holdsSink then
    if s.options.shared then ⟨.done, s.ended, sink.release w, [.closed]⟩
    else
      let after := { s.ended with headerOwed := false }
      match s.settleHeader sink w with
      | (.panicked, w) => ⟨.panicked, after, sink.release w, []⟩
      | (header, w) =>
        match header, sink.call .close w with
        | _, (.panicked, w) => ⟨.panicked, after, sink.release w, [.closingSink]⟩
        | .failed e, (_, w) => ⟨.failed (.write e), after, sink.release w, [.closingSink]⟩
        | _, (.failed e, w) => ⟨.failed (.close e), after, sink.release w, [.closingSink]⟩
        | _, (.ok, w) => ⟨.done, after, sink.release w, [.closingSink]⟩
  else s.ended.quiet w [.closed]

/-- Begins to write on a channel that was fixed from the given addresses. -/
def start (now : Timestamp) (addresses : List SocketAddress) (channel : Channel) (s : Session)
    (w : σ) : Reply σ :=
  let notes := Note.ofAddresses addresses
  match channel with
  | .udp _ _ =>
    quiet { s with channel := some channel, phase := .writing } w (notes ++ [.capturingUdp])
  | .tcp flow =>
    let (segments, opened) := flow.handshake
    let s := { s with channel := some (.tcp opened), phase := .writing }
    (s.quiet w (notes ++ [.capturingTcp flow.client flow.server flow.localIsServer])).andThen
      (writeBatch sink (bareRecords now segments))

/-- The connection became active. Forced ends go before reported ones; without either there is nothing
to frame packets with. -/
def activate (now : Timestamp) (connection : Option Connection) (s : Session) (w : σ) : Reply σ :=
  if s.phase = .init then
    match s.options.forced, connection with
    | some f, _ => s.start sink now f.addresses f.channel w
    | none, some c => s.start sink now c.addresses c.channel w
    | none, none => s.quiet w [.noEndpoints]
  else s.quiet w [.activationIgnored s.phase]

/-- A session with forced ends becomes active by its first event. -/
def ensureActive (now : Timestamp) (s : Session) (w : σ) : Reply σ :=
  if s.phase = .init ∧ s.options.forced.isSome then s.activate sink now none w else s.quiet w []

/-- Counts a payload of the flow and, while writing, records it. -/
def recordTcp (now : Timestamp) (d : Direction) (data : ByteArray) (flow : Flow) (s : Session)
    (w : σ) : Reply σ :=
  let (sent, counted) := flow.sendAll d (pieces data)
  let s := { s with channel := some (.tcp counted) }
  if s.isWriting then
    (s.quiet w (sent.map SentPiece.note)).andThen
      (writeBatch sink (sent.flatMap (SentPiece.records now)))
  else s.quiet w []

/-- Records a datagram while writing, if its far end is known and a packet can hold it. -/
def recordUdp (now : Timestamp) (d : Direction) (data : ByteArray) (near : Endpoint)
    (far : Option Endpoint) (s : Session) (w : σ) : Reply σ :=
  if s.isWriting then
    match far with
    | none => s.quiet w [.noPeer]
    | some far =>
      if data.size > maxUdpPayload then s.quiet w [.datagramTooLong data.size]
      else
        let (src, dst) := match d with
          | .outbound => (near, far)
          | .inbound => (far, near)
        (s.quiet w [.datagram src dst data.size]).andThen
          (writeBatch sink [.stamped now (Packet.udp src dst data.data.toList).frame])
  else s.quiet w []

/-- There is nothing to count or record in a payload of no bytes, unless the session wants those. -/
def skips (s : Session) (data : ByteArray) : Bool := data.isEmpty && !s.options.zeroBytes

/-- A payload travelled on the connection. -/
def payload (now : Timestamp) (d : Direction) (data : ByteArray) (s : Session) (w : σ) : Reply σ :=
  (s.ensureActive sink now w).andThen fun s w =>
    if s.phase = .init ∨ s.phase = .closed then s.quiet w [.payloadIgnored s.phase]
    else if s.skips data then s.quiet w []
    else
      match s.channel with
      | some (.tcp flow) => s.recordTcp sink now d data flow w
      | some (.udp near far) => s.recordUdp sink now d data near far w
      | none => s.quiet w []

/-- A payload travelled to or from a peer, which stands for the far end of this datagram only. -/
def datagram (now : Timestamp) (d : Direction) (data : ByteArray) (peer : SocketAddress)
    (s : Session) (w : σ) : Reply σ :=
  if s.flow?.isSome then s.payload sink now d data w
  else
    (s.ensureActive sink now w).andThen fun s w =>
      if s.phase = .init ∨ s.phase = .closed then s.quiet w [.datagramIgnored s.phase]
      else if s.skips data then s.quiet w []
      else
        (s.quiet w (Note.ofAddresses [peer])).andThen fun s w =>
          match s.channel with
          | some (.udp near _) => s.recordUdp sink now d data near (some peer.endpoint) w
          | _ => s.quiet w []

/-- One side stopped sending. The first to do so opens the closing sequence. -/
def shutdown (d : Direction) (s : Session) (w : σ) : Reply σ :=
  match s.initiator, s.flow? with
  | none, some flow =>
    let side := flow.sender d
    quiet { s with initiator := some side } w [.firstShutdown side]
  | _, _ => s.quiet w []

/-- The connection failed: a reset is recorded in place of the closing sequence. -/
def error (now : Timestamp) (s : Session) (w : σ) : Reply σ :=
  if s.phase = .closed then s.quiet w []
  else
    match s.isWriting, s.channel with
    | true, some (.tcp flow) =>
      (s.writeBatch sink (bareRecords now [flow.reset s.closeInitiator]) w).andThen (finish sink)
    | _, _ => s.finish sink w

def pause (s : Session) (w : σ) : Reply σ :=
  if s.phase = .writing then quiet { s with phase := .paused } w [.paused]
  else s.quiet w [.pauseIgnored s.phase]

def resume (s : Session) (w : σ) : Reply σ :=
  if s.phase = .paused then quiet { s with phase := .writing } w [.resumed]
  else s.quiet w [.resumeIgnored s.phase]

/-- The connection closed. Closing again changes nothing. -/
def close (now : Timestamp) (s : Session) (w : σ) : Reply σ :=
  if s.phase = .closed then s.quiet w [.closeIgnored]
  else
    match s.isWriting, s.channel with
    | true, some (.tcp flow) =>
      let (segments, closed) := flow.close s.closeInitiator
      let s := { s with channel := some (.tcp closed) }
      (s.writeBatch sink (bareRecords now segments) w).andThen (finish sink)
    | _, _ => s.finish sink w

/-- The owner lets the session go: its sink is released and not closed. -/
def drop (s : Session) (w : σ) : σ := if s.holdsSink then sink.release w else w

def handle (now : Timestamp) (e : Event) (s : Session) (w : σ) : Reply σ :=
  match e with
  | .active connection => s.activate sink now connection w
  | .payload d data => s.payload sink now d data w
  | .datagram d data peer => s.datagram sink now d data peer w
  | .shutdown d => s.shutdown d w
  | .error => s.error sink now w
  | .pause => s.pause w
  | .resume => s.resume w
  | .close => s.close sink now w

end

end Session

end Wiretap
