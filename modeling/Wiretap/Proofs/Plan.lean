import Wiretap.Session

/-! What a session means to do. The plan of an operation is what the session asks of its sink, and the
session that comes of it, if the sink does all that it is asked. A plan says nothing of times, of notes
and of the sink that carries it out: it lists packets to be appended, with the file header before them
where one is owed, and whether the sink is closed after them. -/

namespace Wiretap

/-- The packet as a record of a time. -/
def Packet.record (now : Timestamp) (p : Packet) : Record := .stamped now p.frame

/-- Segments without payload as packets. -/
def barePackets (segments : List Segment) : List Packet := segments.map fun s => s.packet []

theorem bareRecords_eq (now : Timestamp) (segments : List Segment) :
    bareRecords now segments = (barePackets segments).map (Packet.record now) := by
  simp [bareRecords, barePackets, Packet.record]

namespace SentPiece

/-- The packets that one piece is recorded as. -/
def packets (p : SentPiece) : List Packet :=
  [p.exchange.data.packet p.piece.data.toList, p.exchange.ack.packet []]

theorem records_eq (now : Timestamp) (sent : List SentPiece) :
    sent.flatMap (SentPiece.records now) = (sent.flatMap packets).map (Packet.record now) := by
  rw [List.map_flatMap]
  rfl

end SentPiece

/-- One thing that is asked of a sink. -/
inductive Act
  | append (header : Bool) (packets : List Packet)
  | close
deriving DecidableEq, Repr

namespace Act

/-- What an append writes. -/
def content (now : Timestamp) (header : Bool) (packets : List Packet) : Bytes :=
  (if header then CaptureFile.header else []) ++ CaptureFile.encode (packets.map (Packet.record now))

/-- The calls of the sink, with records of the given time. -/
def calls (now : Timestamp) : Act → List SinkCall
  | append header packets => [.write (content now header packets), .flush]
  | close => [.close]

end Act

structure Plan where
  acts : List Act
  session : Session

namespace Plan

def calls (now : Timestamp) (p : Plan) : List SinkCall := p.acts.flatMap (Act.calls now)

/-- Goes on with the session that came of the first plan. -/
def andThen (p : Plan) (next : Session → Plan) : Plan :=
  ⟨p.acts ++ (next p.session).acts, (next p.session).session⟩

@[simp] theorem calls_andThen (now : Timestamp) (p : Plan) (next : Session → Plan) :
    (p.andThen next).calls now = p.calls now ++ (next p.session).calls now := by
  simp [calls, andThen]

end Plan

/-- The channel that the options and what is known of a connection give. -/
def Options.channel? (o : Options) (connection : Option Connection) : Option Channel :=
  match o.forced with
  | some f => some f.channel
  | none => connection.map Connection.channel

theorem Options.channel?_forced {o : Options} {f : ForcedChannel} (hforced : o.forced = some f)
    (connection : Option Connection) : o.channel? connection = some f.channel := by
  rw [channel?, hforced]

namespace Session

/-- Nothing is asked of the sink. -/
def planNothing (s : Session) : Plan := ⟨[], s⟩

def planBatch (packets : List Packet) (s : Session) : Plan :=
  if s.holdsSink then ⟨[.append s.headerOwed packets], { s with headerOwed := false }⟩
  else s.planNothing

/-- The acts that end a session. -/
def lastActs (s : Session) : List Act := (if s.headerOwed then [.append true []] else []) ++ [.close]

def planFinish (s : Session) : Plan :=
  if s.holdsSink ∧ s.options.shared = false then ⟨s.lastActs, { s.ended with headerOwed := false }⟩
  else ⟨[], s.ended⟩

def planStart (channel : Channel) (s : Session) : Plan :=
  match channel with
  | .udp _ _ => planNothing { s with channel := some channel, phase := .writing }
  | .tcp flow =>
    planBatch (barePackets flow.handshake.1)
      { s with channel := some (.tcp flow.handshake.2), phase := .writing }

def planActivate (connection : Option Connection) (s : Session) : Plan :=
  if s.phase = .init then
    match s.options.channel? connection with
    | some channel => s.planStart channel
    | none => s.planNothing
  else s.planNothing

def planEnsureActive (s : Session) : Plan :=
  if s.phase = .init ∧ s.options.forced.isSome then s.planActivate none else s.planNothing

def planTcp (d : Direction) (data : ByteArray) (flow : Flow) (s : Session) : Plan :=
  let s := { s with channel := some (.tcp (flow.sendAll d (pieces data)).2) }
  if s.isWriting then planBatch ((flow.sendAll d (pieces data)).1.flatMap SentPiece.packets) s
  else s.planNothing

/-- The ends of a datagram: where it comes from and where it goes. -/
def datagramEnds (d : Direction) (near far : Endpoint) : Endpoint × Endpoint :=
  match d with
  | .outbound => (near, far)
  | .inbound => (far, near)

def planUdp (d : Direction) (data : ByteArray) (near : Endpoint) (far : Option Endpoint)
    (s : Session) : Plan :=
  if s.isWriting ∧ data.size ≤ maxUdpPayload then
    match far with
    | some far =>
      s.planBatch [.udp (datagramEnds d near far).1 (datagramEnds d near far).2 data.data.toList]
    | none => s.planNothing
  else s.planNothing

/-- What a payload is to a session that had the chance to become active. -/
def planHeard (d : Direction) (data : ByteArray) (s : Session) : Plan :=
  if (s.phase = .init ∨ s.phase = .closed) ∨ s.skips data then s.planNothing
  else
    match s.channel with
    | some (.tcp flow) => s.planTcp d data flow
    | some (.udp near far) => s.planUdp d data near far
    | none => s.planNothing

def planPayload (d : Direction) (data : ByteArray) (s : Session) : Plan :=
  s.planEnsureActive.andThen (planHeard d data)

def planDatagram (d : Direction) (data : ByteArray) (peer : SocketAddress) (s : Session) : Plan :=
  if s.flow?.isSome then s.planPayload d data
  else
    s.planEnsureActive.andThen fun s =>
      if (s.phase = .init ∨ s.phase = .closed) ∨ s.skips data then s.planNothing
      else
        match s.channel with
        | some (.udp near _) => s.planUdp d data near (some peer.endpoint)
        | _ => s.planNothing

def planShutdown (d : Direction) (s : Session) : Plan :=
  match s.initiator, s.flow? with
  | none, some flow => planNothing { s with initiator := some (flow.sender d) }
  | _, _ => s.planNothing

def planError (s : Session) : Plan :=
  if s.phase = .closed then s.planNothing
  else
    match s.isWriting, s.channel with
    | true, some (.tcp flow) =>
      (s.planBatch (barePackets [flow.reset s.closeInitiator])).andThen planFinish
    | _, _ => s.planFinish

def planPause (s : Session) : Plan :=
  if s.phase = .writing then planNothing { s with phase := .paused } else s.planNothing

def planResume (s : Session) : Plan :=
  if s.phase = .paused then planNothing { s with phase := .writing } else s.planNothing

def planClose (s : Session) : Plan :=
  if s.phase = .closed then s.planNothing
  else
    match s.isWriting, s.channel with
    | true, some (.tcp flow) =>
      (planBatch (barePackets (flow.close s.closeInitiator).1)
        { s with channel := some (.tcp (flow.close s.closeInitiator).2) }).andThen planFinish
    | _, _ => s.planFinish

def plan (e : Event) (s : Session) : Plan :=
  match e with
  | .active connection => s.planActivate connection
  | .payload d data => s.planPayload d data
  | .datagram d data peer => s.planDatagram d data peer
  | .shutdown d => s.planShutdown d
  | .error => s.planError
  | .pause => s.planPause
  | .resume => s.planResume
  | .close => s.planClose

@[simp] theorem create_options (options : Options) : (create options).options = options := rfl

@[simp] theorem create_phase (options : Options) : (create options).phase = .init := rfl

@[simp] theorem create_holdsSink (options : Options) : (create options).holdsSink = true := rfl

@[simp] theorem create_channel (options : Options) : (create options).channel = none := rfl

section

variable (packets : List Packet) (s : Session)

@[simp] theorem planBatch_acts :
    (s.planBatch packets).acts = if s.holdsSink then [.append s.headerOwed packets] else [] := by
  unfold planBatch
  split <;> rfl

@[simp] theorem planBatch_headerOwed :
    (s.planBatch packets).session.headerOwed = (s.headerOwed && !s.holdsSink) := by
  unfold planBatch
  split <;> simp_all [planNothing]

@[simp] theorem planBatch_options : (s.planBatch packets).session.options = s.options := by
  unfold planBatch
  split <;> rfl

@[simp] theorem planBatch_phase : (s.planBatch packets).session.phase = s.phase := by
  unfold planBatch
  split <;> rfl

@[simp] theorem planBatch_holdsSink : (s.planBatch packets).session.holdsSink = s.holdsSink := by
  unfold planBatch
  split <;> rfl

@[simp] theorem planBatch_channel : (s.planBatch packets).session.channel = s.channel := by
  unfold planBatch
  split <;> rfl

@[simp] theorem planBatch_initiator : (s.planBatch packets).session.initiator = s.initiator := by
  unfold planBatch
  split <;> rfl

end

/-- A plan that begins to write on a channel keeps hold of the sink. -/
theorem planStart_keeps (channel : Channel) (s : Session) :
    (s.planStart channel).session.options = s.options ∧
      (s.planStart channel).session.holdsSink = s.holdsSink := by
  cases channel <;> simp [planStart, planNothing]

theorem planActivate_keeps (connection : Option Connection) (s : Session) :
    (s.planActivate connection).session.options = s.options ∧
      (s.planActivate connection).session.holdsSink = s.holdsSink := by
  unfold planActivate
  split
  · cases s.options.channel? connection with
    | some channel => exact s.planStart_keeps channel
    | none => exact ⟨rfl, rfl⟩
  · exact ⟨rfl, rfl⟩

theorem planEnsureActive_keeps (s : Session) :
    s.planEnsureActive.session.options = s.options ∧
      s.planEnsureActive.session.holdsSink = s.holdsSink := by
  unfold planEnsureActive
  split
  · exact s.planActivate_keeps none
  · exact ⟨rfl, rfl⟩

theorem planUdp_channel (d : Direction) (data : ByteArray) (near : Endpoint) (far : Option Endpoint)
    (s : Session) : (s.planUdp d data near far).session.channel = s.channel := by
  unfold planUdp
  split
  · cases far with
    | none => rfl
    | some far => exact planBatch_channel _ _
  · rfl

theorem planTcp_holdsSink (d : Direction) (data : ByteArray) (flow : Flow) (s : Session) :
    (s.planTcp d data flow).session.holdsSink = s.holdsSink := by
  unfold planTcp
  dsimp only
  split
  · exact planBatch_holdsSink _ _
  · rfl

theorem planUdp_holdsSink (d : Direction) (data : ByteArray) (near : Endpoint)
    (far : Option Endpoint) (s : Session) :
    (s.planUdp d data near far).session.holdsSink = s.holdsSink := by
  unfold planUdp
  split
  · cases far with
    | none => rfl
    | some far => exact planBatch_holdsSink _ _
  · rfl

theorem planPayload_holdsSink (d : Direction) (data : ByteArray) (s : Session) :
    (s.planPayload d data).session.holdsSink = s.holdsSink := by
  apply Eq.trans _ s.planEnsureActive_keeps.2
  change (planHeard d data _).session.holdsSink = _
  generalize s.planEnsureActive.session = s
  unfold planHeard
  split
  · rfl
  · split
    · exact planTcp_holdsSink d data _ s
    · exact planUdp_holdsSink d data _ _ s
    · rfl

theorem planDatagram_holdsSink (d : Direction) (data : ByteArray) (peer : SocketAddress)
    (s : Session) : (s.planDatagram d data peer).session.holdsSink = s.holdsSink := by
  unfold planDatagram
  split
  · exact planPayload_holdsSink d data s
  · apply Eq.trans _ s.planEnsureActive_keeps.2
    generalize s.planEnsureActive = p
    dsimp only [Plan.andThen]
    split
    · rfl
    · split
      · exact planUdp_holdsSink d data _ _ p.session
      · rfl

theorem planFinish_channel (s : Session) : s.planFinish.session.channel = s.channel := by
  unfold planFinish
  split <;> rfl

theorem planFinish_phase (s : Session) : s.planFinish.session.phase = .closed := by
  unfold planFinish
  split <;> rfl

/-- A session that is closed or told of a failure is closed afterwards. -/
theorem plan_ends (s : Session) {e : Event} (he : e = .close ∨ e = .error) :
    (s.plan e).session.phase = .closed := by
  rcases he with rfl | rfl
  · change s.planClose.session.phase = .closed
    unfold planClose
    split
    · assumption
    · split
      · exact planFinish_phase _
      · exact planFinish_phase s
  · change s.planError.session.phase = .closed
    unfold planError
    split
    · assumption
    · split
      · exact planFinish_phase _
      · exact planFinish_phase s

/-- A session that is not told of an end keeps its sink. -/
theorem plan_holdsSink (s : Session) {e : Event} (hclose : e ≠ .close) (herror : e ≠ .error) :
    (s.plan e).session.holdsSink = s.holdsSink := by
  cases e with
  | active connection => exact (s.planActivate_keeps connection).2
  | payload d data => exact planPayload_holdsSink d data s
  | datagram d data peer => exact planDatagram_holdsSink d data peer s
  | shutdown d =>
      simp only [plan, planShutdown]
      split <;> rfl
  | pause =>
      simp only [plan, planPause]
      split <;> rfl
  | resume =>
      simp only [plan, planResume]
      split <;> rfl
  | close => exact absurd rfl hclose
  | error => exact absurd rfl herror

end Session

end Wiretap
