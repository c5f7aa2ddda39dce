import Wiretap.Proofs.Trace

/-! Two views of one session. Sessions that differ in nothing but how their ends were given and which of
these is near make the same calls; so they come to the same results on sinks that give the same answers,
panics included. The times in what is written may be others, where the sinks do not mind. This is proved
operation by operation, and runs are compared with it. -/

namespace Wiretap

/-- Answers as the other sink does to calls that are related, in all states that are related. -/
structure Sink.Resembles {σ τ : Type} (sink : Sink σ) (image : Sink τ)
    (C : SinkCall → SinkCall → Prop) (R : σ → τ → Prop) : Prop where
  call : ∀ {w v}, R w v → ∀ {c c'}, C c c' →
    (image.call c' v).1 = (sink.call c w).1 ∧ R (sink.call c w).2 (image.call c' v).2
  release : ∀ {w v}, R w v → R (sink.release w) (image.release v)

/-- At the two times the same packets make related calls. -/
structure SinkCall.Covers (C : SinkCall → SinkCall → Prop) (now now' : Timestamp) : Prop where
  write : ∀ (header : Bool) (packets : List Packet),
    C (.write (Act.content now header packets)) (.write (Act.content now' header packets))
  flush : C .flush .flush
  close : C .close .close

theorem SinkCall.Covers.same (now : Timestamp) : SinkCall.Covers Eq now now :=
  ⟨fun _ _ => rfl, rfl, rfl⟩

theorem SinkCall.Covers.alike (now now' : Timestamp) : SinkCall.Covers SinkCall.Alike now now' where
  write := Act.content_alike now now'
  flush := .flush
  close := .close

namespace Sink

theorem resembles_self {σ : Type} (sink : Sink σ) : sink.Resembles sink Eq Eq where
  call := by
    rintro w v rfl c c' rfl
    exact ⟨rfl, rfl⟩
  release := by
    rintro w v rfl
    rfl

/-- Prepared answers do not depend on the times in what is written. -/
theorem rehearsed_resembles : rehearsed.Resembles rehearsed SinkCall.Alike fun w v =>
    v.answers = w.answers ∧ List.Forall₂ SinkCall.Alike w.calls v.calls where
  call := by
    rintro ⟨calls, answers⟩ ⟨calls', answers'⟩ ⟨hanswers, hcalls⟩ c c' hc
    dsimp only at hanswers hcalls
    rw [hanswers]
    cases answers with
    | nil => exact ⟨rfl, rfl, .cons hc hcalls⟩
    | cons o rest => exact ⟨rfl, rfl, .cons hc hcalls⟩
  release h := h

section

variable {σ τ : Type} {sink : Sink σ} {image : Sink τ} {C : SinkCall → SinkCall → Prop}
  {R : σ → τ → Prop} {w : σ} {u : τ}

theorem Resembles.answers (h : sink.Resembles image C R) (hw : R w u) {c c' : SinkCall} (hc : C c c') :
    ∃ o x y, sink.call c w = (o, x) ∧ image.call c' u = (o, y) ∧ R x y := by
  obtain ⟨houtcome, hafter⟩ := h.call hw hc
  exact ⟨_, _, _, rfl, Prod.ext houtcome rfl, hafter⟩

theorem Resembles.appends (h : sink.Resembles image C R) (hw : R w u) {bytes bytes' : Bytes}
    (hwrite : C (.write bytes) (.write bytes')) (hflush : C .flush .flush) :
    ∃ o x y, sink.append bytes w = (o, x) ∧ image.append bytes' u = (o, y) ∧ R x y := by
  obtain ⟨o, x, y, hcall, hcall', hafter⟩ := h.answers hw hwrite
  unfold Sink.append
  rw [hcall, hcall']
  cases o with
  | ok => exact h.answers hafter hflush
  | failed e => exact ⟨_, x, y, rfl, rfl, hafter⟩
  | panicked => exact ⟨_, x, y, rfl, rfl, hafter⟩

end

end Sink

/-! ### Views -/

/-- Another view of a capture: its ends may be given otherwise, and near and far may be exchanged. -/
structure View where
  forced : Option ForcedChannel → Option ForcedChannel
  turned : Bool

namespace View

variable (v : View)

def direction (d : Direction) : Direction := if v.turned then d.opposite else d

def flow (f : Flow) : Flow := { f with localIsServer := f.localIsServer ^^ v.turned }

/-- A socket without a far end is the same from either side. -/
def udpEnds (near : Endpoint) (far : Option Endpoint) : Endpoint × Option Endpoint :=
  match v.turned, far with
  | true, some far => (far, some near)
  | _, _ => (near, far)

theorem udpEnds_none (near : Endpoint) : v.udpEnds near none = (near, none) := by
  unfold udpEnds
  cases v.turned <;> rfl

theorem udpEnds_of_not_turned (h : v.turned = false) (near : Endpoint) (far : Option Endpoint) :
    v.udpEnds near far = (near, far) := by
  unfold udpEnds
  rw [h]

/-- A datagram goes from one end to the other whichever of them is near. -/
theorem udpEnds_some (near far : Endpoint) : ∃ near' far',
    v.udpEnds near (some far) = (near', some far') ∧
    ∀ d, Session.datagramEnds (v.direction d) near' far' = Session.datagramEnds d near far := by
  obtain ⟨forced, turned⟩ := v
  cases turned with
  | false => exact ⟨near, far, rfl, fun d => rfl⟩
  | true =>
      refine ⟨far, near, rfl, fun d => ?_⟩
      cases d <;> rfl

def channel : Channel → Channel
  | .tcp f => .tcp (v.flow f)
  | .udp near far => .udp (v.udpEnds near far).1 (v.udpEnds near far).2

def options (o : Options) : Options := { o with forced := v.forced o.forced }

def session (s : Session) : Session :=
  { s with options := v.options s.options, channel := s.channel.map v.channel }

/-- The view of what a connection is to a session with the given options. -/
def Agrees (o : Options) (connection connection' : Option Connection) : Prop :=
  (v.options o).channel? connection' = (o.channel? connection).map v.channel

theorem sender_direction (f : Flow) (d : Direction) :
    (v.flow f).sender (v.direction d) = f.sender d := by
  obtain ⟨forced, turned⟩ := v
  obtain ⟨client, server, localIsServer, m, n⟩ := f
  cases d <;> cases turned <;> cases localIsServer <;> rfl

theorem setSeq_flow (f : Flow) (n : UInt32) (side : Side) :
    (v.flow f).setSeq n side = v.flow (f.setSeq n side) := by
  cases side <;> rfl

theorem seq_flow (f : Flow) (side : Side) : (v.flow f).seq side = f.seq side := by
  cases side <;> rfl

theorem segment_flow (f : Flow) (sender : Side) (flags : TcpFlags) (seq ack : UInt32) :
    (v.flow f).segment sender flags seq ack = f.segment sender flags seq ack := by
  cases sender <;> rfl

theorem send_flow (f : Flow) (d : Direction) (length : UInt32) :
    (v.flow f).send (v.direction d) length = ((f.send d length).1, v.flow (f.send d length).2) := by
  simp only [Flow.send, sender_direction, seq_flow, segment_flow, setSeq_flow]

theorem sendAll_flow (f : Flow) (d : Direction) (parts : List ByteArray) :
    (v.flow f).sendAll (v.direction d) parts = ((f.sendAll d parts).1, v.flow (f.sendAll d parts).2) := by
  induction parts generalizing f with
  | nil => rfl
  | cons part parts ih => simp only [Flow.sendAll, send_flow, ih]

theorem handshake_flow (f : Flow) : (v.flow f).handshake = (f.handshake.1, v.flow f.handshake.2) := rfl

theorem close_flow (f : Flow) (side : Side) :
    (v.flow f).close side = ((f.close side).1, v.flow (f.close side).2) := by
  simp only [Flow.close, seq_flow, segment_flow, setSeq_flow]

theorem reset_flow (f : Flow) (side : Side) : (v.flow f).reset side = f.reset side := by
  simp only [Flow.reset, Flow.ack, seq_flow, segment_flow]

@[simp] theorem session_phase (s : Session) : (v.session s).phase = s.phase := rfl

@[simp] theorem session_holdsSink (s : Session) : (v.session s).holdsSink = s.holdsSink := rfl

@[simp] theorem session_headerOwed (s : Session) : (v.session s).headerOwed = s.headerOwed := rfl

@[simp] theorem session_initiator (s : Session) : (v.session s).initiator = s.initiator := rfl

@[simp] theorem session_shared (s : Session) : (v.session s).options.shared = s.options.shared := rfl

@[simp] theorem session_channel (s : Session) : (v.session s).channel = s.channel.map v.channel := rfl

@[simp] theorem session_isWriting (s : Session) : (v.session s).isWriting = s.isWriting := rfl

@[simp] theorem session_skips (s : Session) (data : ByteArray) :
    (v.session s).skips data = s.skips data := rfl

@[simp] theorem session_closeInitiator (s : Session) :
    (v.session s).closeInitiator = s.closeInitiator := rfl

@[simp] theorem session_flow? (s : Session) : (v.session s).flow? = s.flow?.map v.flow := by
  unfold Session.flow?
  rw [session_channel]
  rcases s.channel with _ | f | ⟨near, far⟩ <;> rfl

end View

/-! ### One operation -/

/-- The reply of the one session is that of the other in this view. -/
structure Reply.Seen {σ τ : Type} (v : View) (R : σ → τ → Prop) (r : Reply σ) (r' : Reply τ) :
    Prop where
  result : r'.result = r.result
  session : r'.session = v.session r.session
  sink : R r.sink r'.sink

section

variable {σ τ : Type} {sink : Sink σ} {image : Sink τ} {C : SinkCall → SinkCall → Prop}
  {R : σ → τ → Prop} {v : View} {s : Session} {w : σ} {u : τ} {now now' : Timestamp}

namespace Reply.Seen

theorem quiet (hw : R w u) (s : Session) (notes notes' : List Note) :
    Reply.Seen v R (s.quiet w notes) ((v.session s).quiet u notes') := ⟨rfl, rfl, hw⟩

theorem andThen {r : Reply σ} {r' : Reply τ} {next : Session → σ → Reply σ}
    {next' : Session → τ → Reply τ} (h : Reply.Seen v R r r')
    (hnext : ∀ w u, R w u → Reply.Seen v R (next r.session w) (next' (v.session r.session) u)) :
    Reply.Seen v R (r.andThen next) (r'.andThen next') := by
  obtain ⟨hresult, hsession, hsink⟩ := h
  unfold Reply.andThen
  rw [hresult, hsession]
  cases r.result with
  | done =>
      obtain ⟨hresult', hsession', hsink'⟩ := hnext r.sink r'.sink hsink
      exact ⟨hresult', hsession', hsink'⟩
  | failed e => exact ⟨hresult, hsession, hsink⟩
  | panicked => exact ⟨hresult, hsession, hsink⟩

end Reply.Seen

namespace Session

theorem activate_starts (sink : Sink σ) (now : Timestamp) {connection : Option Connection}
    {channel : Channel} (w : σ) (hphase : s.phase = .init)
    (hchannel : s.options.channel? connection = some channel) :
    ∃ addresses, s.activate sink now connection w = s.start sink now addresses channel w := by
  unfold Options.channel? at hchannel
  unfold activate
  rw [if_pos hphase]
  cases hforced : s.options.forced with
  | some f =>
      rw [hforced] at hchannel
      cases hchannel
      exact ⟨_, rfl⟩
  | none =>
      rw [hforced] at hchannel
      obtain ⟨c, rfl, rfl⟩ := Option.map_eq_some_iff.mp hchannel
      exact ⟨_, rfl⟩

theorem activate_idles (sink : Sink σ) (now : Timestamp) {connection : Option Connection} (w : σ)
    (hchannel : s.options.channel? connection = none) :
    ∃ notes, s.activate sink now connection w = s.quiet w notes := by
  unfold Options.channel? at hchannel
  unfold activate
  split
  · cases hforced : s.options.forced with
    | some f =>
        rw [hforced] at hchannel
        cases hchannel
    | none =>
        rw [hforced] at hchannel
        rw [Option.map_eq_none_iff.mp hchannel]
        exact ⟨_, rfl⟩
  · exact ⟨_, rfl⟩

theorem channel?_isSome (o : Options) : (o.channel? none).isSome = o.forced.isSome := by
  unfold Options.channel?
  cases o.forced <;> rfl

variable (hsinks : sink.Resembles image C R) (htimes : SinkCall.Covers C now now')

include hsinks htimes

theorem writeBatch_seen (hw : R w u) (packets : List Packet) (s : Session) :
    Reply.Seen v R (s.writeBatch sink (packets.map (Packet.record now)) w)
      ((v.session s).writeBatch image (packets.map (Packet.record now')) u) := by
  unfold writeBatch
  rw [View.session_holdsSink, View.session_headerOwed, View.session_shared]
  by_cases hholds : s.holdsSink = true
  · have hwrite := htimes.write s.headerOwed packets
    unfold Act.content at hwrite
    obtain ⟨o, x, y, happend, happend', hafter⟩ := hsinks.appends hw hwrite htimes.flush
    rw [if_pos hholds, if_pos hholds]
    dsimp only
    rw [happend, happend']
    cases o with
    | ok => exact ⟨rfl, rfl, hafter⟩
    | panicked => exact ⟨rfl, rfl, hafter⟩
    | failed e =>
        obtain ⟨o, x', y', hclose, hclose', hclosed⟩ := hsinks.answers hafter htimes.close
        dsimp only
        rw [hclose, hclose']
        by_cases hshared : s.options.shared = true
        · rw [if_pos hshared, if_pos hshared]
          exact ⟨rfl, rfl, hsinks.release hafter⟩
        · rw [if_neg hshared, if_neg hshared]
          cases o <;> exact ⟨rfl, rfl, hsinks.release hclosed⟩
  · rw [if_neg hholds, if_neg hholds]
    exact .quiet hw s _ _

theorem finish_seen (hw : R w u) (s : Session) :
    Reply.Seen v R (s.finish sink w) ((v.session s).finish image u) := by
  unfold finish
  rw [View.session_holdsSink, View.session_shared]
  by_cases hholds : s.holdsSink = true
  · rw [if_pos hholds, if_pos hholds]
    by_cases hshared : s.options.shared = true
    · rw [if_pos hshared, if_pos hshared]
      exact ⟨rfl, rfl, hsinks.release hw⟩
    · have hheader : ∃ o x y, s.settleHeader sink w = (o, x) ∧
          (v.session s).settleHeader image u = (o, y) ∧ R x y := by
        unfold settleHeader
        rw [View.session_headerOwed]
        by_cases howed : s.headerOwed = true
        · rw [if_pos howed, if_pos howed]
          exact hsinks.appends hw (htimes.write true []) htimes.flush
        · rw [if_neg howed, if_neg howed]
          exact ⟨_, w, u, rfl, rfl, hw⟩
      obtain ⟨header, x, y, hsettle, hsettle', hafter⟩ := hheader
      obtain ⟨o, x', y', hclose, hclose', hclosed⟩ := hsinks.answers hafter htimes.close
      rw [if_neg hshared, if_neg hshared]
      dsimp only
      rw [hsettle, hsettle']
      cases header with
      | panicked => exact ⟨rfl, rfl, hsinks.release hafter⟩
      | ok =>
          dsimp only
          rw [hclose, hclose']
          cases o <;> exact ⟨rfl, rfl, hsinks.release hclosed⟩
      | failed e =>
          dsimp only
          rw [hclose, hclose']
          cases o <;> exact ⟨rfl, rfl, hsinks.release hclosed⟩
  · rw [if_neg hholds, if_neg hholds]
    exact ⟨rfl, rfl, hw⟩

theorem start_seen (hw : R w u) (addresses addresses' : List SocketAddress) (channel : Channel)
    (s : Session) :
    Reply.Seen v R (s.start sink now addresses channel w)
      ((v.session s).start image now' addresses' (v.channel channel) u) := by
  cases channel with
  | tcp flow =>
      unfold start
      simp only [View.channel, View.handshake_flow, bareRecords_eq]
      exact (Reply.Seen.quiet hw { s with channel := some (.tcp flow.handshake.2), phase := .writing }
        _ _).andThen fun w u hw => writeBatch_seen hsinks htimes hw _ _
  | udp near far => exact ⟨rfl, rfl, hw⟩

theorem activate_seen (hw : R w u) {connection connection' : Option Connection}
    (h : s.phase = .init → v.Agrees s.options connection connection') :
    Reply.Seen v R (s.activate sink now connection w)
      ((v.session s).activate image now' connection' u) := by
  by_cases hphase : s.phase = .init
  · have hagrees := h hphase
    unfold View.Agrees at hagrees
    cases hchannel : s.options.channel? connection with
    | some channel =>
        rw [hchannel] at hagrees
        obtain ⟨addresses, hstart⟩ := activate_starts sink now w hphase hchannel
        obtain ⟨addresses', hstart'⟩ :=
          activate_starts (s := v.session s) image now' u hphase hagrees
        rw [hstart, hstart']
        exact start_seen hsinks htimes hw addresses addresses' channel s
    | none =>
        rw [hchannel] at hagrees
        obtain ⟨notes, hquiet⟩ := activate_idles sink now w hchannel
        obtain ⟨notes', hquiet'⟩ := activate_idles (s := v.session s) image now' u hagrees
        rw [hquiet, hquiet']
        exact .quiet hw s notes notes'
  · unfold activate
    rw [View.session_phase, if_neg hphase, if_neg hphase]
    exact .quiet hw s _ _

theorem ensureActive_seen (hw : R w u) (h : s.phase = .init → v.Agrees s.options none none) :
    Reply.Seen v R (s.ensureActive sink now w) ((v.session s).ensureActive image now' u) := by
  have hsame : ((v.session s).phase = .init ∧ (v.session s).options.forced.isSome = true) ↔
      (s.phase = .init ∧ s.options.forced.isSome = true) := by
    refine and_congr_right fun hphase => ?_
    have hagrees := congrArg Option.isSome (h hphase)
    rw [channel?_isSome, Option.isSome_map, channel?_isSome] at hagrees
    exact Bool.eq_iff_iff.mp hagrees
  unfold ensureActive
  rw [if_congr hsame rfl rfl]
  split
  · exact activate_seen hsinks htimes hw h
  · exact .quiet hw s _ _

theorem recordTcp_seen (hw : R w u) (d : Direction) (data : ByteArray) (flow : Flow) (s : Session) :
    Reply.Seen v R (s.recordTcp sink now d data flow w)
      ((v.session s).recordTcp image now' (v.direction d) data (v.flow flow) u) := by
  unfold recordTcp
  rw [View.sendAll_flow]
  dsimp only
  rw [SentPiece.records_eq, SentPiece.records_eq]
  change Reply.Seen v R (if s.isWriting then _ else _) (if s.isWriting then _ else _)
  by_cases hwriting : s.isWriting = true
  · rw [if_pos hwriting, if_pos hwriting]
    exact (Reply.Seen.quiet hw { s with channel := some (.tcp (flow.sendAll d (pieces data)).2) } _
      _).andThen fun w u hw => writeBatch_seen hsinks htimes hw _ _
  · rw [if_neg hwriting, if_neg hwriting]
    exact .quiet hw { s with channel := some (.tcp (flow.sendAll d (pieces data)).2) } _ _

omit hsinks htimes in
theorem recordUdp_known (sink : Sink σ) (now : Timestamp) (d : Direction) (data : ByteArray)
    (near far : Endpoint) (s : Session) (w : σ) :
    s.recordUdp sink now d data near (some far) w =
      if s.isWriting then
        if data.size > maxUdpPayload then s.quiet w [.datagramTooLong data.size]
        else
          let ends := datagramEnds d near far
          (s.quiet w [.datagram ends.1 ends.2 data.size]).andThen
            (writeBatch sink ([Packet.udp ends.1 ends.2 data.data.toList].map (Packet.record now)))
      else s.quiet w [] := by
  cases d <;> rfl

/-- The ends of a datagram are the same in every view in which its direction is. -/
theorem recordUdp_seen (hw : R w u) (d : Direction) (data : ByteArray) (near : Endpoint)
    (far : Option Endpoint) (s : Session) :
    Reply.Seen v R (s.recordUdp sink now d data near far w)
      ((v.session s).recordUdp image now' (v.direction d) data (v.udpEnds near far).1
        (v.udpEnds near far).2 u) := by
  cases far with
  | none =>
      rw [View.udpEnds_none]
      unfold recordUdp
      rw [View.session_isWriting]
      split <;> exact .quiet hw s _ _
  | some far =>
      obtain ⟨near', far', hends, hsame⟩ := v.udpEnds_some near far
      rw [hends, recordUdp_known, recordUdp_known, hsame, View.session_isWriting]
      split
      · split
        · exact .quiet hw s _ _
        · exact (Reply.Seen.quiet hw s _ _).andThen fun w u hw => writeBatch_seen hsinks htimes hw _ s
      · exact .quiet hw s _ _

theorem payload_seen (hw : R w u) (d : Direction) (data : ByteArray)
    (h : s.phase = .init → v.Agrees s.options none none) :
    Reply.Seen v R (s.payload sink now d data w)
      ((v.session s).payload image now' (v.direction d) data u) := by
  refine (ensureActive_seen hsinks htimes hw h).andThen fun w u hw => ?_
  generalize (s.ensureActive sink now _).session = s
  rw [View.session_phase, View.session_skips, View.session_channel]
  split
  · exact .quiet hw s _ _
  · split
    · exact .quiet hw s _ _
    · rcases s.channel with _ | flow | ⟨near, far⟩
      · exact .quiet hw s _ _
      · exact recordTcp_seen hsinks htimes hw d data flow s
      · exact recordUdp_seen hsinks htimes hw d data near far s

/-- The peer of a datagram is far from the near end, so the near end has to be the same. -/
theorem datagram_seen (hw : R w u) (d : Direction) (data : ByteArray) {peer peer' : SocketAddress}
    (h : s.phase = .init → v.Agrees s.options none none) (hpeer : peer'.endpoint = peer.endpoint)
    (hudp : v.turned = true → (s.ensureActive sink now w).session.protocol? ≠ some .udp) :
    Reply.Seen v R (s.datagram sink now d data peer w)
      ((v.session s).datagram image now' (v.direction d) data peer' u) := by
  unfold datagram
  rw [View.session_flow?, Option.isSome_map]
  split
  · exact payload_seen hsinks htimes hw d data h
  · refine (ensureActive_seen hsinks htimes hw h).andThen fun w u hw => ?_
    generalize (s.ensureActive sink now _).session = s at hudp ⊢
    rw [View.session_phase, View.session_skips]
    split
    · exact .quiet hw s _ _
    · split
      · exact .quiet hw s _ _
      · refine (Reply.Seen.quiet hw s _ _).andThen fun w u hw => ?_
        dsimp only [quiet]
        rw [View.session_channel, hpeer]
        rcases hchannel : s.channel with _ | flow | ⟨near, far⟩
        · exact .quiet hw s _ _
        · exact .quiet hw s _ _
        · have hstays : v.turned = false := by
            refine Bool.eq_false_iff.mpr fun hturned => hudp hturned ?_
            rw [protocol?, hchannel]
            rfl
          have hsame : ∀ far, v.udpEnds near far = (near, far) := v.udpEnds_of_not_turned hstays near
          have hrecord := recordUdp_seen (v := v) hsinks htimes hw d data near (some peer.endpoint) s
          rw [hsame] at hrecord
          rw [Option.map_some, View.channel, hsame]
          exact hrecord

omit hsinks htimes in
theorem shutdown_seen (hw : R w u) (d : Direction) :
    Reply.Seen v R (s.shutdown d w) ((v.session s).shutdown (v.direction d) u) := by
  unfold shutdown
  rw [View.session_initiator, View.session_flow?]
  cases s.initiator with
  | some side => exact .quiet hw s _ _
  | none =>
      cases s.flow? with
      | none => exact .quiet hw s _ _
      | some flow =>
          rw [Option.map_some]
          dsimp only
          rw [View.sender_direction]
          exact .quiet hw { s with initiator := some (flow.sender d) } _ _

theorem error_seen (hw : R w u) :
    Reply.Seen v R (s.error sink now w) ((v.session s).error image now' u) := by
  unfold error
  rw [View.session_phase, View.session_isWriting, View.session_channel, View.session_closeInitiator]
  split
  · exact .quiet hw s _ _
  · cases s.isWriting with
    | false => exact finish_seen hsinks htimes hw s
    | true =>
        rcases s.channel with _ | flow | ⟨near, far⟩
        · exact finish_seen hsinks htimes hw s
        · simp only [Option.map_some, View.channel, View.reset_flow, bareRecords_eq]
          exact (writeBatch_seen hsinks htimes hw _ s).andThen fun w u hw =>
            finish_seen hsinks htimes hw _
        · exact finish_seen hsinks htimes hw s

theorem close_seen (hw : R w u) :
    Reply.Seen v R (s.close sink now w) ((v.session s).close image now' u) := by
  unfold close
  rw [View.session_phase, View.session_isWriting, View.session_channel, View.session_closeInitiator]
  split
  · exact .quiet hw s _ _
  · cases s.isWriting with
    | false => exact finish_seen hsinks htimes hw s
    | true =>
        rcases s.channel with _ | flow | ⟨near, far⟩
        · exact finish_seen hsinks htimes hw s
        · simp only [Option.map_some, View.channel, View.close_flow, bareRecords_eq]
          exact (writeBatch_seen hsinks htimes hw _
            { s with channel := some (.tcp (flow.close s.closeInitiator).2) }).andThen
              fun w u hw => finish_seen hsinks htimes hw _
        · exact finish_seen hsinks htimes hw s

omit hsinks htimes in
theorem pause_seen (hw : R w u) : Reply.Seen v R (s.pause w) ((v.session s).pause u) := by
  unfold pause
  rw [View.session_phase]
  split
  · exact .quiet hw { s with phase := .paused } _ _
  · exact .quiet hw s _ _

omit hsinks htimes in
theorem resume_seen (hw : R w u) : Reply.Seen v R (s.resume w) ((v.session s).resume u) := by
  unfold resume
  rw [View.session_phase]
  split
  · exact .quiet hw { s with phase := .writing } _ _
  · exact .quiet hw s _ _

end Session

end

/-- What the session with its sink is told is the same in this view. Datagrams with a peer have no other
side, so there are none on UDP where the view is turned. -/
inductive View.Shows (v : View) {σ : Type} (sink : Sink σ) (now : Timestamp) (s : Session) (w : σ) :
    Event → Event → Prop
  | active {connection connection' : Option Connection}
      (h : s.phase = .init → v.Agrees s.options connection connection') :
      v.Shows sink now s w (.active connection) (.active connection')
  | payload (d : Direction) (data : ByteArray) (h : s.phase = .init → v.Agrees s.options none none) :
      v.Shows sink now s w (.payload d data) (.payload (v.direction d) data)
  | datagram (d : Direction) (data : ByteArray) {peer peer' : SocketAddress}
      (h : s.phase = .init → v.Agrees s.options none none) (hpeer : peer'.endpoint = peer.endpoint)
      (hudp : v.turned = true → (s.ensureActive sink now w).session.protocol? ≠ some .udp) :
      v.Shows sink now s w (.datagram d data peer) (.datagram (v.direction d) data peer')
  | shutdown (d : Direction) : v.Shows sink now s w (.shutdown d) (.shutdown (v.direction d))
  | error : v.Shows sink now s w .error .error
  | pause : v.Shows sink now s w .pause .pause
  | resume : v.Shows sink now s w .resume .resume
  | close : v.Shows sink now s w .close .close

/-- **Every operation is the same in every view**, whatever the sinks answer. -/
theorem Session.handle_seen {σ τ : Type} {sink : Sink σ} {image : Sink τ}
    {C : SinkCall → SinkCall → Prop} {R : σ → τ → Prop} {v : View} {s : Session} {w : σ} {u : τ}
    {now now' : Timestamp} {e e' : Event} (hsinks : sink.Resembles image C R)
    (htimes : SinkCall.Covers C now now') (hw : R w u) (h : v.Shows sink now s w e e') :
    Reply.Seen v R (s.handle sink now e w) ((v.session s).handle image now' e' u) := by
  cases h with
  | active h => exact activate_seen hsinks htimes hw h
  | payload d data h => exact payload_seen hsinks htimes hw d data h
  | datagram d data h hpeer hudp => exact datagram_seen hsinks htimes hw d data h hpeer hudp
  | shutdown d => exact shutdown_seen hw d
  | error => exact error_seen hsinks htimes hw
  | pause => exact pause_seen hw
  | resume => exact resume_seen hw
  | close => exact close_seen hsinks htimes hw

/-! ### Views that are not turned -/

/-- What is told, with other addresses for the connections and the peers that it names. -/
def Event.readdressed (connections : Connection → Connection) (peers : SocketAddress → SocketAddress) :
    Event → Event
  | .active connection => .active (connection.map connections)
  | .datagram d data peer => .datagram d data (peers peer)
  | e => e

theorem Event.readdressed_id (e : Event) : e.readdressed id id = e := by
  cases e with
  | active connection => exact congrArg Event.active (congrFun Option.map_id connection)
  | _ => rfl

namespace View

variable {v : View}

theorem channel_of_not_turned (h : v.turned = false) : v.channel = id := by
  funext c
  cases c with
  | tcp flow =>
      simp only [channel, View.flow, h, Bool.xor_false]
      rfl
  | udp near far =>
      simp only [channel, v.udpEnds_of_not_turned h]
      rfl

/-- A view that is not turned leaves everything as it is but the ends that were given. -/
theorem session_of_not_turned (h : v.turned = false) (s : Session) :
    v.session s = { s with options := v.options s.options } := by
  rw [session, channel_of_not_turned h, Option.map_id_fun, id]

theorem agrees_of_not_turned (h : v.turned = false) {o : Options}
    {connection connection' : Option Connection}
    (hsame : (v.options o).channel? connection' = o.channel? connection) :
    v.Agrees o connection connection' := by
  rw [Agrees, hsame, channel_of_not_turned h, Option.map_id_fun, id]

/-- Other addresses are the same event where their endpoints are the same; only a session that is not yet
active minds what a connection is to it. -/
theorem shows_of_not_turned (h : v.turned = false) {connections : Connection → Connection}
    {peers : SocketAddress → SocketAddress} (hpeers : ∀ a, (peers a).endpoint = a.endpoint)
    {σ : Type} (sink : Sink σ) (s : Session) (w : σ) (now : Timestamp) (e : Event)
    (hagrees : s.phase = .init →
      ∀ connection, v.Agrees s.options connection (connection.map connections)) :
    v.Shows sink now s w e (e.readdressed connections peers) := by
  obtain ⟨forced, turned⟩ := v
  cases h
  cases e with
  | active connection => exact .active fun hinit => hagrees hinit connection
  | payload d data => exact .payload d data fun hinit => hagrees hinit none
  | datagram d data peer =>
      exact .datagram d data (fun hinit => hagrees hinit none) (hpeers peer) fun hturned => by
        cases hturned
  | shutdown d => exact .shutdown d
  | error => exact .error
  | pause => exact .pause
  | resume => exact .resume
  | close => exact .close

/-- To a view that is not turned an event is itself. -/
theorem shows_itself (h : v.turned = false) {σ : Type} (sink : Sink σ) (s : Session) (w : σ)
    (now : Timestamp) (e : Event)
    (hagrees : s.phase = .init → ∀ connection, v.Agrees s.options connection connection) :
    v.Shows sink now s w e e := by
  have hshows : v.Shows sink now s w e (e.readdressed id id) :=
    shows_of_not_turned h (fun _ => rfl) sink s w now e fun hinit connection => by
      rw [Option.map_id_fun]
      exact hagrees hinit connection
  rwa [Event.readdressed_id] at hshows

end View

/-! ### Runs -/

/-- What is told at related times in this view and in the other, event by event. -/
abbrev SinkCall.Paired (C : SinkCall → SinkCall → Prop) (view : Event → Event)
    (events events' : List TimedEvent) : Prop :=
  List.Forall₂ (fun x y => SinkCall.Covers C x.1 y.1 ∧ y.2 = view x.2) events events'

theorem SinkCall.paired_same (view : Event → Event) (events : List TimedEvent) :
    SinkCall.Paired Eq view events (events.map fun x => (x.1, view x.2)) := by
  rw [SinkCall.Paired, List.forall₂_map_right_iff, List.forall₂_same]
  exact fun x _ => ⟨.same x.1, rfl⟩

theorem SinkCall.paired_alike {view : Event → Event} {events events' : List TimedEvent}
    (h : events'.map Prod.snd = events.map fun x => view x.2) :
    SinkCall.Paired SinkCall.Alike view events events' := by
  have heq : List.Forall₂ Eq (events.map fun x => view x.2) (events'.map Prod.snd) := by
    rw [List.forall₂_eq_eq_eq, h]
  rw [List.forall₂_map_left_iff, List.forall₂_map_right_iff] at heq
  exact heq.imp fun x y hxy => ⟨.alike x.1 y.1, hxy.symm⟩

/-- **A run is the same in every view**, where what it is told is, event by event. -/
theorem Session.run_seen {σ τ : Type} {sink : Sink σ} {image : Sink τ}
    {C : SinkCall → SinkCall → Prop} {R : σ → τ → Prop} {v : View} {view : Event → Event}
    {P : Session → Prop} (hsinks : sink.Resembles image C R)
    (hshows : ∀ s w now e, P s → v.Shows sink now s w e (view e))
    (hkeeps : ∀ s w now e, P s → P (s.handle sink now e w).session)
    {events events' : List TimedEvent} (hevents : SinkCall.Paired C view events events')
    {s : Session} {w : σ} {u : τ} (hw : R w u) (hs : P s) :
    let here := s.run sink events w
    let there := (v.session s).run image events' u
    there.results = here.results ∧ there.session = v.session here.session ∧ R here.sink there.sink := by
  induction hevents generalizing s w u with
  | nil => exact ⟨rfl, rfl, hw⟩
  | @cons x y events events' hxy _ ih =>
      obtain ⟨now, e⟩ := x
      obtain ⟨now', _⟩ := y
      obtain ⟨htimes, rfl⟩ := hxy
      obtain ⟨hresult, hsession, hsink⟩ := handle_seen hsinks htimes hw (hshows s w now e hs)
      obtain ⟨hresults, hsession', hsink'⟩ := ih hsink (hkeeps s w now e hs)
      simp only [run]
      rw [hsession]
      exact ⟨by rw [hresult, hresults], hsession', hsink'⟩

end Wiretap
