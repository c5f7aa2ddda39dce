import Wiretap.Session
import Wiretap.Utf8

/-! The relay between a client and a service. Two pumps move bytes, one each way, and tell one
capture session what they move: bytes read from the client are inbound, bytes that come back are
outbound. A pump waits for a read, has the session record what it got, forwards all of it, and waits
again; at the end of its source it tells the session which side stopped and shuts the writer down. When
a pump fails the other is stopped. Once both are gone the capture is closed, or reset after a failure.
Failures of the capture are logged and never stop the bytes.

The relay moves whenever something that it waits for comes about: a read or a write of either pump, the
end of a pump being noticed, or a request from outside. Any sequence of moves is a schedule; a move that
nothing waits for changes nothing. -/

namespace Wiretap

/-- The two streams that a relay joins. -/
inductive Stream
  | client
  | service
deriving DecidableEq, Repr

namespace Stream

def name : Stream → String
  | client => "client"
  | service => "upstream"

end Stream

namespace Direction

/-- Where bytes of a direction are read. -/
def source : Direction → Stream
  | inbound => .client
  | outbound => .service

/-- Where bytes of a direction are forwarded to. -/
def target : Direction → Stream
  | inbound => .service
  | outbound => .client

end Direction

/-- The direction of the bytes that are read from a stream. -/
def Stream.direction : Stream → Direction
  | client => .inbound
  | service => .outbound

theorem Stream.direction_source (d : Direction) : d.source.direction = d := by cases d <;> rfl

/-- Bytes that a pump asks for in one read. -/
def readSize : Nat := 16384

inductive Pump
  | reading
  | sending (rest : ByteArray)
  | ended
  | failed (e : IoError)
  | gone

namespace Pump

/-- The pump waits for a stream. -/
def isRunning : Pump → Bool
  | reading => true
  | sending _ => true
  | _ => false

def isGone : Pump → Bool
  | gone => true
  | _ => false

end Pump

/-- A read gives bytes, none at the end of the stream; a write accepts a number of bytes. -/
inductive Move
  | read (d : Direction) (r : Except IoError ByteArray)
  | write (d : Direction) (r : Except IoError Nat)
  | join (d : Direction)
  | pause
  | resume
  | close

/-- What the streams saw. -/
inductive Traffic
  | read (s : Stream) (length : Nat)
  | readFailed (s : Stream)
  | sent (s : Stream) (bytes : ByteArray)
  | sendFailed (s : Stream)
  | shutdown (s : Stream)

/-- Bytes read from either stream, each counted in 64 bits. -/
structure Tally where
  fromClient : UInt64 := 0
  fromService : UInt64 := 0
deriving DecidableEq, Repr

namespace Tally

def inbound (t : Tally) : Nat := t.fromClient.toNat

def outbound (t : Tally) : Nat := t.fromService.toNat

/-- So many bytes more; the count wraps. -/
def add (t : Tally) (n : Nat) : Direction → Tally
  | .inbound => { t with fromClient := t.fromClient + .ofNat n }
  | .outbound => { t with fromService := t.fromService + .ofNat n }

def text (t : Tally) : String := decimal t.inbound ++ "/" ++ decimal t.outbound

end Tally

inductive RelayNote
  | session (n : Note)
  | activationFailed (e : CaptureError)
  | starting
  | pumpStarted (d : Direction)
  | endOfStream (d : Direction)
  | payloadFailed (d : Direction) (e : CaptureError)
  | relayed (d : Direction) (length : Nat) (preview : Bytes)
  | failed (t : Tally) (e : NetworkError)
  | completed (t : Tally)
deriving DecidableEq, Repr

namespace RelayNote

/-- Bytes of a payload that are shown in the log. -/
def previewLength : Nat := 64

/-- A payload passed; its first bytes are shown. -/
def ofPayload (d : Direction) (data : ByteArray) : RelayNote :=
  relayed d data.size (data.extract 0 previewLength).data.toList

def line (id : String) : RelayNote → LogLine
  | session n => n.line id
  | activationFailed e => .about .error id ("capture activation failed: " ++ e.message)
  | starting => .about .debug id "starting tcp proxy"
  | pumpStarted d => .about .trace id (d.name ++ " task started")
  | endOfStream d => .about .trace id (d.name ++ " EOF; shutting down peer writer")
  | payloadFailed d e =>
    .about .error id ("capture of " ++ d.name ++ " payload failed: " ++ e.message)
  | relayed d length preview =>
    .about .trace id ("relayed " ++ d.name ++ " " ++ decimal length ++ " bytes: " ++
      Utf8.lossy preview ++ (if length > previewLength then " ..." else ""))
  | failed t e =>
    .about .debug id ("tcp proxy failed after " ++ t.text ++ " bytes: " ++ e.message)
  | completed t => .about .debug id ("tcp proxy completed, " ++ t.text ++ " bytes")

end RelayNote

structure Relay (σ : Type) where
  session : Session
  sink : σ
  inbound : Pump := .reading
  outbound : Pump := .reading
  forwarded : Tally := {}
  failure : Option IoError := none

/-- A relay after a move, what the streams saw of the move, and what the log was told. -/
structure RelayReply (σ : Type) where
  relay : Relay σ
  traffic : List Traffic := []
  notes : List RelayNote := []

namespace Relay

section

variable {σ : Type} (sink : Sink σ)

def pump (r : Relay σ) : Direction → Pump
  | .inbound => r.inbound
  | .outbound => r.outbound

def setPump (r : Relay σ) (p : Pump) : Direction → Relay σ
  | .inbound => { r with inbound := p }
  | .outbound => { r with outbound := p }

/-- Both pumps have been noticed to be gone. -/
def isOver (r : Relay σ) : Bool := r.inbound.isGone && r.outbound.isGone

/-- A pump broke off inside the capture. -/
def brokenOff : IoError := .told .other "task panicked"

/-- The session handles an event; whether that fails is for the caller to say. -/
def tell (now : Timestamp) (e : Event) (r : Relay σ) : Result × RelayReply σ :=
  let reply := r.session.handle sink now e r.sink
  (reply.result,
    ⟨{ r with session := reply.session, sink := reply.sink }, [], reply.notes.map .session⟩)

/-- The session becomes active and both pumps start, that of the client first. -/
def start (now : Timestamp) (connection : Connection) (session : Session) (w : σ) :
    RelayReply σ :=
  let (result, reply) := tell sink now (.active (some connection)) { session, sink := w }
  let failures := match result with
    | .failed e => [.activationFailed e]
    | _ => []
  { reply with
    notes := reply.notes ++ failures ++ [.starting, .pumpStarted .inbound, .pumpStarted .outbound] }

/-- Bytes were read: they are counted and recorded, and only then forwarded. -/
def observe (now : Timestamp) (d : Direction) (data : ByteArray) (r : Relay σ) : RelayReply σ :=
  let (result, reply) := tell sink now (.payload d data)
    { r with forwarded := r.forwarded.add data.size d }
  let failures := match result with
    | .failed e => [.payloadFailed d e]
    | _ => []
  match result with
  | .panicked =>
    { reply with
      relay := reply.relay.setPump (.failed brokenOff) d, traffic := [.read d.source data.size] }
  | _ =>
    { relay := reply.relay.setPump (.sending data) d
      traffic := [.read d.source data.size]
      notes := reply.notes ++ failures ++ [.ofPayload d data] }

/-- The source of a pump has no more bytes. -/
def endStream (now : Timestamp) (d : Direction) (r : Relay σ) : RelayReply σ :=
  let (_, reply) := tell sink now (.shutdown d) r
  ⟨reply.relay.setPump .ended d, [.read d.source 0, .shutdown d.target],
    .endOfStream d :: reply.notes⟩

/-- So many bytes of a rest were accepted; none is a failure. -/
def accept (d : Direction) (rest : ByteArray) (n : Nat) (r : Relay σ) : RelayReply σ :=
  let sent := rest.extract 0 n
  let rest' := rest.extract n rest.size
  let p : Pump :=
    if sent.isEmpty then .failed (.bare .writeZero)
    else if rest'.isEmpty then .reading
    else .sending rest'
  ⟨r.setPump p d, [.sent d.target sent], []⟩

/-- A pump that is still running is stopped where it waits. -/
def stop (d : Direction) (r : Relay σ) : Relay σ :=
  if (r.pump d).isRunning then r.setPump .gone d else r

/-- The end of a pump is noticed. The first failure stops the other pump and is kept. -/
def join (d : Direction) (r : Relay σ) : Relay σ :=
  match r.pump d with
  | .ended => r.setPump .gone d
  | .failed e =>
    let r := r.setPump .gone d
    match r.failure with
    | some _ => r
    | none => { r with failure := some e }.stop d.opposite
  | _ => r

def step (now : Timestamp) (r : Relay σ) : Move → RelayReply σ
  | .read d got =>
    match r.pump d, got with
    | .reading, .ok data =>
      if data.isEmpty then r.endStream sink now d else r.observe sink now d data
    | .reading, .error e => ⟨r.setPump (.failed e) d, [.readFailed d.source], []⟩
    | _, _ => ⟨r, [], []⟩
  | .write d got =>
    match r.pump d, got with
    | .sending rest, .ok n => r.accept d rest n
    | .sending _, .error e => ⟨r.setPump (.failed e) d, [.sendFailed d.target], []⟩
    | _, _ => ⟨r, [], []⟩
  | .join d => ⟨r.join d, [], []⟩
  | .pause => (r.tell sink now .pause).2
  | .resume => (r.tell sink now .resume).2
  | .close => (r.tell sink now .close).2

/-- Closes the capture. -/
def closeCapture (now : Timestamp) (r : Relay σ) : Result × RelayReply σ := r.tell sink now .close

/-- The end of a relay whose pumps are gone. After a failure the capture is reset, and the failure is
the relay's unless the capture failed too. -/
def finish (now : Timestamp) (r : Relay σ) : NetworkResult × RelayReply σ :=
  match r.failure with
  | some e =>
    let (result, reply) := r.tell sink now .error
    (match result with
      | .done => .failed (.stream e)
      | .failed c => .failed (.capture c)
      | .panicked => .panicked,
      { reply with notes := .failed r.forwarded (.stream e) :: reply.notes })
  | none =>
    let (result, reply) := r.closeCapture sink now
    (match result with
      | .done => .done
      | .failed c => .failed (.capture c)
      | .panicked => .panicked,
      { reply with notes := .completed r.forwarded :: reply.notes })

end

end Relay

end Wiretap
