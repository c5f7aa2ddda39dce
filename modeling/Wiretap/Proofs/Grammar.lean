import Wiretap.Proofs.Conversation
import Wiretap.Proofs.Upkeep

/-! The grammar of a TCP capture. Whatever a session is told and in whatever order, its file holds no
packet before it is active, then the handshake, then one exchange after another, then at most one ending,
and nothing after that. Which ending there is depends on the operation that closed the session alone, and
on whether the session was writing at the time. -/

namespace Wiretap

/-- The operations that end a session. -/
def Event.ends : Event → Bool
  | .close => true
  | .error => true
  | _ => false

theorem Event.ends_iff {e : Event} : e.ends = true ↔ e = .close ∨ e = .error := by
  cases e <;> simp [Event.ends]

/-- The session after some events, if its sink never fails. -/
def Session.told (s : Session) (events : List TimedEvent) : Session :=
  (s.run Sink.recording events []).session

/-- SYN, SYN+ACK and ACK. -/
def openingPackets (flow : Flow) : List Packet :=
  [.tcp flow.client flow.server 0 0 .syn [], .tcp flow.server flow.client 0 1 .synAck [],
    .tcp flow.client flow.server 1 1 .ack []]

/-- Any number of data segments, each followed by the acknowledgment of its receiver. -/
inductive Dialogue (flow : Flow) : List Packet → Prop
  | silence : Dialogue flow []
  | exchange (sender : Side) (seq ack : UInt32) (payload : Bytes) {rest : List Packet}
      (h : Dialogue flow rest) : Dialogue flow
        (.tcp (flow.endpoint sender) (flow.endpoint sender.opposite) seq ack .ack payload ::
          .tcp (flow.endpoint sender.opposite) (flow.endpoint sender) ack
            (seq + .ofNat payload.length) .ack [] :: rest)

/-- FIN+ACK, FIN+ACK and ACK of a flow that the given side closes. -/
def finPackets (f : Flow) (initiator : Side) : List Packet :=
  let responder := initiator.opposite
  let i := f.seq initiator
  let r := f.seq responder
  [.tcp (f.endpoint initiator) (f.endpoint responder) i r .finAck [],
    .tcp (f.endpoint responder) (f.endpoint initiator) r i .finAck [],
    .tcp (f.endpoint initiator) (f.endpoint responder) (i + 1) (r + 1) .ack []]

/-- RST+ACK of a flow that the given side resets. -/
def rstPackets (f : Flow) (initiator : Side) : List Packet :=
  let responder := initiator.opposite
  [.tcp (f.endpoint initiator) (f.endpoint responder) (f.seq initiator) (f.seq responder) .rstAck []]

/-- How an event that closes the session ends the capture of its flow. -/
def endingPackets (s : Session) (e : Event) (initiator : Side) : List Packet :=
  match s.phase, s.channel, e with
  | .writing, some (.tcp f), .close => finPackets f initiator
  | .writing, some (.tcp f), .error => rstPackets f initiator
  | _, _, _ => []

/-- How the capture of a flow ends, by what the session is told from there on. -/
inductive Session.Ending (flow : Flow) (s : Session) (events : List TimedEvent) : List Packet → Prop
  | unended (hopen : (s.told events).phase ≠ .closed) : Session.Ending flow s events []
  | ended (before : List TimedEvent) (now : Timestamp) (e : Event) (after : List TimedEvent)
      (hsplit : events = before ++ (now, e) :: after) (hopen : (s.told before).phase ≠ .closed)
      (hclosed : (s.told (before ++ [(now, e)])).phase = .closed) :
      Session.Ending flow s events (endingPackets (s.told before) e
        ((firstToStop? flow (before.map Prod.snd)).getD .client))

/-! ### Segments -/

namespace Dialogue

variable {flow : Flow}

theorem append {packets more : List Packet} (h : Dialogue flow packets) (hmore : Dialogue flow more) :
    Dialogue flow (packets ++ more) := by
  induction h with
  | silence => exact hmore
  | exchange sender seq ack payload _ ih => exact .exchange sender seq ack payload ih

theorem of_sameEnds {packets : List Packet} {f : Flow} (h : Dialogue flow packets)
    (hends : flow.SameEnds f) : Dialogue f packets := by
  induction h with
  | silence => exact .silence
  | exchange sender seq ack payload _ ih =>
      rw [← hends.endpoint, ← hends.endpoint]
      exact .exchange sender seq ack payload ih

/-- Every piece of a payload is one exchange. -/
theorem sendAll (d : Direction) (parts : List ByteArray) {f : Flow} (hends : flow.SameEnds f) :
    Dialogue flow ((f.sendAll d parts).1.flatMap SentPiece.packets) := by
  induction parts generalizing f with
  | nil => exact .silence
  | cons part parts ih =>
      have hnext : flow.SameEnds (f.send d (.ofNat part.size)).2 :=
        hends.trans (f.sameEnds_setSeq _ _)
      have hpiece := exchange (f.sender d) (f.seq (f.sender d)) (f.seq (f.sender d).opposite)
        part.data.toList (ih hnext)
      rw [toList_length] at hpiece
      simpa [Flow.sendAll, Flow.send, Flow.segment, SentPiece.packets, Segment.packet, hends.endpoint,
        Side.opposite_opposite] using hpiece

end Dialogue

theorem openingPackets_of_sameEnds {flow f : Flow} (h : flow.SameEnds f) :
    openingPackets f = openingPackets flow := by
  simp only [openingPackets, h.client, h.server]

theorem handshake_packets (flow : Flow) : barePackets flow.handshake.1 = openingPackets flow := rfl

theorem close_packets (f : Flow) (side : Side) :
    barePackets (f.close side).1 = finPackets f side := by
  simp [barePackets, finPackets, Flow.close, Flow.segment, Segment.packet, Side.opposite_opposite]

theorem reset_packets (f : Flow) (side : Side) : barePackets [f.reset side] = rstPackets f side := rfl

/-! ### An open session -/

namespace Session

/-- The session is open on the flow, and the given side stopped first. -/
structure OpenOn (flow : Flow) (stopped : Option Side) (s : Session) : Prop where
  active : s.phase = .writing ∨ s.phase = .paused
  holds : s.holdsSink = true
  initiator : s.initiator = stopped
  channel : ∃ f, s.channel = some (.tcp f) ∧ flow.SameEnds f

namespace OpenOn

variable {flow : Flow} {stopped : Option Side} {s : Session}

theorem ne_closed (h : s.OpenOn flow stopped) : s.phase ≠ .closed := by
  rcases h.active with hphase | hphase <;> rw [hphase] <;> exact Phase.noConfusion

theorem awake (h : s.OpenOn flow stopped) : s.phase ≠ .init := by
  rcases h.active with hphase | hphase <;> rw [hphase] <;> exact Phase.noConfusion

theorem tcp {f : Flow} (h : s.OpenOn flow stopped) (hends : flow.SameEnds f) (d : Direction)
    (data : ByteArray) :
    Dialogue flow ((s.planTcp d data f).acts.flatMap Act.packets) ∧
      (s.planTcp d data f).session.OpenOn flow stopped := by
  have hends' : flow.SameEnds (f.sendAll d (pieces data)).2 := hends.trans (f.sameEnds_sendAll _ _)
  rcases h.active with hphase | hphase
  · rw [planTcp_writing d data hphase]
    refine ⟨?_, ?_, ?_, ?_, _, planBatch_channel _ _, hends'⟩
    · rw [planBatch_acts, h.holds]
      simpa [Act.packets] using Dialogue.sendAll d (pieces data) hends
    · rw [planBatch_phase]
      exact h.active
    · rw [planBatch_holdsSink, h.holds]
    · rw [planBatch_initiator, h.initiator]
  · rw [planTcp_paused d data hphase]
    exact ⟨.silence, h.active, h.holds, h.initiator, _, rfl, hends'⟩

theorem payload (h : s.OpenOn flow stopped) (d : Direction) (data : ByteArray) :
    Dialogue flow ((s.planPayload d data).acts.flatMap Act.packets) ∧
      (s.planPayload d data).session.OpenOn flow stopped := by
  obtain ⟨f, hf, hends⟩ := h.channel
  rw [planPayload_active d data h.active hf]
  split
  · exact ⟨.silence, h⟩
  · exact h.tcp hends d data

theorem shutdown (h : s.OpenOn flow stopped) (d : Direction) :
    Dialogue flow ((s.planShutdown d).acts.flatMap Act.packets) ∧
      (s.planShutdown d).session.OpenOn flow (stopped.or (some (flow.sender d))) := by
  obtain ⟨f, hf, hends⟩ := h.channel
  unfold planShutdown
  rw [s.flow?_eq_some_iff.mpr hf, h.initiator]
  cases stopped with
  | none =>
      refine ⟨.silence, h.active, h.holds, ?_, f, hf, hends⟩
      change some (f.sender d) = some (flow.sender d)
      rw [hends.sender]
  | some side => exact ⟨.silence, h⟩

/-- **An event that does not end the connection is recorded as exchanges, if it is recorded.** -/
theorem event {e : Event} (h : s.OpenOn flow stopped) (he : e.ends = false) :
    Dialogue flow ((s.plan e).acts.flatMap Act.packets) ∧
      (s.plan e).session.OpenOn flow (stopped.or (firstToStop? flow [e])) := by
  have hunmarked : stopped.or none = stopped := Option.or_none
  obtain ⟨f, hf, hends⟩ := h.channel
  cases e with
  | active connection =>
      change Dialogue flow ((s.planActivate connection).acts.flatMap _) ∧
        (s.planActivate connection).session.OpenOn flow (stopped.or none)
      rw [planActivate, if_neg h.awake, hunmarked]
      exact ⟨.silence, h⟩
  | payload d data =>
      change _ ∧ OpenOn flow (stopped.or none) _
      rw [hunmarked]
      exact h.payload d data
  | datagram d data peer =>
      have hplan : s.plan (.datagram d data peer) = s.planPayload d data := by
        change s.planDatagram d data peer = _
        rw [planDatagram, s.flow?_eq_some_iff.mpr hf]
        rfl
      rw [hplan]
      change _ ∧ OpenOn flow (stopped.or none) _
      rw [hunmarked]
      exact h.payload d data
  | shutdown d => exact h.shutdown d
  | pause =>
      change Dialogue flow (s.planPause.acts.flatMap _) ∧ OpenOn flow (stopped.or none) s.planPause.session
      rw [hunmarked, planPause]
      split
      · exact ⟨.silence, .inr rfl, h.holds, h.initiator, f, hf, hends⟩
      · exact ⟨.silence, h⟩
  | resume =>
      change Dialogue flow (s.planResume.acts.flatMap _) ∧ OpenOn flow (stopped.or none) s.planResume.session
      rw [hunmarked, planResume]
      split
      · exact ⟨.silence, .inl rfl, h.holds, h.initiator, f, hf, hends⟩
      · exact ⟨.silence, h⟩
  | error => cases he
  | close => cases he

theorem events (h : s.OpenOn flow stopped) (es : List Event) (hes : ∀ e ∈ es, e.ends = false) :
    Dialogue flow ((s.planAll es).acts.flatMap Act.packets) ∧
      (s.planAll es).session.OpenOn flow (stopped.or (firstToStop? flow es)) := by
  induction es generalizing s stopped with
  | nil =>
      refine ⟨.silence, ?_⟩
      change s.OpenOn flow (stopped.or none)
      rwa [Option.or_none]
  | cons e es ih =>
      obtain ⟨hspeech, hafter⟩ := h.event (hes e List.mem_cons_self)
      obtain ⟨hspeech', hafter'⟩ := ih hafter fun e he => hes e (List.mem_cons_of_mem _ he)
      refine ⟨?_, ?_⟩
      · rw [planAll, Plan.andThen, List.flatMap_append]
        exact hspeech.append hspeech'
      · rw [Option.or_assoc, ← firstToStop?_append] at hafter'
        exact hafter'

/-- An event that ends the connection, by the phase in which it comes. -/
theorem ending {e : Event} (h : s.OpenOn flow stopped) (he : e.ends = true) :
    (s.plan e).acts.flatMap Act.packets = endingPackets s e (stopped.getD .client) := by
  obtain ⟨f, hf, hends⟩ := h.channel
  have hside : s.closeInitiator = stopped.getD .client := by rw [closeInitiator, h.initiator]
  rcases h.active with hphase | hphase
  · have hwriting : s.isWriting = true := s.isWriting_iff.mpr hphase
    cases e with
    | close =>
        have hlast : endingPackets s .close (stopped.getD .client) = finPackets f s.closeInitiator := by
          simp only [endingPackets, hphase, hf, hside]
        change s.planClose.acts.flatMap _ = _
        rw [planClose, if_neg h.ne_closed, hf, hwriting, hlast, ← close_packets]
        exact batch_finish_packets (s := { s with channel := some (.tcp (f.close _).2) }) _ h.holds
    | error =>
        have hlast : endingPackets s .error (stopped.getD .client) = rstPackets f s.closeInitiator := by
          simp only [endingPackets, hphase, hf, hside]
        change s.planError.acts.flatMap _ = _
        rw [planError, if_neg h.ne_closed, hf, hwriting, hlast, ← reset_packets]
        exact batch_finish_packets _ h.holds
    | _ => cases he
  · have hwriting : s.isWriting = false := by rw [isWriting, hphase]; rfl
    have hlast : endingPackets s e (stopped.getD .client) = [] := by simp only [endingPackets, hphase]
    rw [hlast]
    cases e with
    | close =>
        change s.planClose.acts.flatMap _ = _
        rw [planClose, if_neg h.ne_closed, hwriting]
        exact s.finish_packets
    | error =>
        change s.planError.acts.flatMap _ = _
        rw [planError, if_neg h.ne_closed, hwriting]
        exact s.finish_packets
    | _ => cases he

end OpenOn

variable {flow : Flow} {s : Session} {options : Options}

theorem told_eq (s : Session) (events : List TimedEvent) :
    s.told events = (s.planAll (events.map Prod.snd)).session := by
  rw [told, run_recording]

theorem told_append (s : Session) (xs ys : List TimedEvent) :
    s.told (xs ++ ys) = (s.told xs).told ys := by
  simp only [told_eq, List.map_append, planAll_append, Plan.andThen]

theorem told_inStep (options : Options) (events : List TimedEvent) :
    ((create options).told events).InStep options :=
  (run_inStep events (create_inStep options)).1

theorem told_leads (hs : s.InStep options) (events : List TimedEvent) : s.Leads (s.told events) :=
  (run_inStep events hs).2

/-- From its opening on a flow is recorded as exchanges and then one ending at most. -/
theorem OpenOn.grammar (h : s.OpenOn flow none) (events : List TimedEvent) :
    ∃ dialogue ending, (s.planAll (events.map Prod.snd)).acts.flatMap Act.packets =
        dialogue ++ ending ∧ Dialogue flow dialogue ∧ Ending flow s events ending := by
  cases hfind : events.find? fun x => x.2.ends with
  | none =>
      have htalk : ∀ e ∈ events.map Prod.snd, e.ends = false := by
        intro e he
        obtain ⟨x, hx, rfl⟩ := List.mem_map.mp he
        exact Bool.eq_false_iff.mpr (List.find?_eq_none.mp hfind x hx)
      obtain ⟨hspeech, hafter⟩ := h.events _ htalk
      refine ⟨_, [], (List.append_nil _).symm, hspeech, .unended ?_⟩
      rw [told_eq]
      exact hafter.ne_closed
  | some x =>
      obtain ⟨now, e⟩ := x
      obtain ⟨he, talk, after, rfl, hbefore⟩ := List.find?_eq_some_iff_append.mp hfind
      have htalk : ∀ e ∈ talk.map Prod.snd, e.ends = false := by
        intro e he
        obtain ⟨x, hx, rfl⟩ := List.mem_map.mp he
        simpa using hbefore x hx
      obtain ⟨hspeech, hafter⟩ := h.events _ htalk
      rw [Option.none_or] at hafter
      have hclosed := plan_ends (s.planAll (talk.map Prod.snd)).session (Event.ends_iff.mp he)
      have hsilent := ((planAll_path (after.map Prod.snd) _).closed hclosed).1
      have hlast := hafter.ending he
      rw [← told_eq] at hlast hafter hsilent
      refine ⟨_, _, ?_, hspeech, .ended talk now e after rfl hafter.ne_closed ?_⟩
      · rw [List.map_append, planAll_append, Plan.andThen, List.flatMap_append, List.map_cons, planAll,
          Plan.andThen, ← told_eq, hsilent, List.append_nil, hlast]
      · rw [told_eq, List.map_append, planAll_append]
        exact hclosed

/-! ### Before a flow is open -/

/-- What comes of giving a session that was just created the chance to become active. -/
inductive Opened (options : Options) (p : Plan) : Prop
  | asleep (hsame : p = (create options).planNothing) : Opened options p
  | udp (hudp : p.session.protocol? = some .udp) : Opened options p
  | tcp (flow : Flow) (hopen : p.session.OpenOn flow none)
      (hpackets : p.acts.flatMap Act.packets = openingPackets flow) : Opened options p

/-- What an event does that wakes a session: it closes it, or opens it on a channel. -/
inductive Woken (p : Plan) : Prop
  | closed (hphase : p.session.phase = .closed) (hchannel : p.session.channel = none)
      (hsilent : p.acts.flatMap Act.packets = []) : Woken p
  | udp (hudp : p.session.protocol? = some .udp) : Woken p
  | tcp (flow : Flow) (dialogue : List Packet) (hopen : p.session.OpenOn flow none)
      (hspeech : Dialogue flow dialogue)
      (hpackets : p.acts.flatMap Act.packets = openingPackets flow ++ dialogue) : Woken p

theorem activate_opens (options : Options) (connection : Option Connection) :
    Opened options ((create options).planActivate connection) := by
  rw [planActivate, if_pos (create_phase options), create_options]
  cases options.channel? connection with
  | none => exact .asleep rfl
  | some channel =>
      cases channel with
      | udp near far => exact .udp rfl
      | tcp flow =>
          refine .tcp flow ⟨?_, ?_, ?_, flow.handshake.2, planBatch_channel _ _, rfl, rfl, rfl⟩ ?_
          · exact .inl (planBatch_phase _ _)
          · exact planBatch_holdsSink _ _
          · exact planBatch_initiator _ _
          · simp [planStart, Act.packets, handshake_packets]

theorem ensureActive_opens (options : Options) : Opened options (create options).planEnsureActive := by
  unfold planEnsureActive
  split
  · exact activate_opens options none
  · exact .asleep rfl

/-- A payload that wakes a session opens it, and then it is heard. -/
theorem Opened.andThen {p : Plan} {next : Session → Plan} (h : Opened options p)
    (hasleep : next (create options) = (create options).planNothing)
    (hudp : ∀ s : Session, s.protocol? = some .udp → (next s).session.protocol? = some .udp)
    (htcp : ∀ s flow, s.OpenOn flow none → Dialogue flow ((next s).acts.flatMap Act.packets) ∧
      (next s).session.OpenOn flow none)
    (hwakes : (p.andThen next).session.phase ≠ .init) : Woken (p.andThen next) := by
  cases h with
  | asleep hsame =>
      rw [hsame, Plan.andThen] at hwakes
      change (next (create options)).session.phase ≠ .init at hwakes
      rw [hasleep] at hwakes
      exact absurd rfl hwakes
  | udp hp => exact .udp (hudp p.session hp)
  | tcp flow hopen hpackets =>
      obtain ⟨hspeech, hafter⟩ := htcp p.session flow hopen
      refine .tcp flow _ hafter hspeech ?_
      rw [Plan.andThen, List.flatMap_append, hpackets]

theorem planHeard_udp (d : Direction) (data : ByteArray) (hs : s.protocol? = some .udp) :
    (s.planHeard d data).session.protocol? = some .udp := by
  unfold planHeard
  split
  · exact hs
  · split
    · rename_i flow hflow
      rw [protocol?, hflow] at hs
      cases hs
    · rw [protocol?, planUdp_channel]
      exact hs
    · exact hs

/-- What a datagram is to a session that had no flow and had the chance to become active. -/
def planReported (d : Direction) (data : ByteArray) (peer : SocketAddress) (s : Session) : Plan :=
  if (s.phase = .init ∨ s.phase = .closed) ∨ s.skips data then s.planNothing
  else
    match s.channel with
    | some (.udp near _) => s.planUdp d data near (some peer.endpoint)
    | _ => s.planNothing

theorem planReported_udp (d : Direction) (data : ByteArray) (peer : SocketAddress)
    (hs : s.protocol? = some .udp) :
    (s.planReported d data peer).session.protocol? = some .udp := by
  unfold planReported
  split
  · exact hs
  · split
    · rw [protocol?, planUdp_channel]
      exact hs
    · exact hs

theorem OpenOn.reported {stopped : Option Side} (h : s.OpenOn flow stopped) (d : Direction)
    (data : ByteArray) (peer : SocketAddress) :
    Dialogue flow ((s.planReported d data peer).acts.flatMap Act.packets) ∧
      (s.planReported d data peer).session.OpenOn flow stopped := by
  obtain ⟨f, hf, -⟩ := h.channel
  rw [planReported, hf, ite_self]
  exact ⟨.silence, h⟩

theorem OpenOn.heard {stopped : Option Side} (h : s.OpenOn flow stopped) (d : Direction)
    (data : ByteArray) :
    Dialogue flow ((s.planHeard d data).acts.flatMap Act.packets) ∧
      (s.planHeard d data).session.OpenOn flow stopped := by
  have hpayload := h.payload d data
  rw [planPayload, planEnsureActive, if_neg fun hinit => h.awake hinit.1] at hpayload
  exact hpayload

theorem create_wakes {e : Event} (hwakes : ((create options).plan e).session.phase ≠ .init) :
    Woken ((create options).plan e) := by
  cases e with
  | active connection =>
      change Woken ((create options).planActivate connection)
      cases activate_opens options connection with
      | asleep hsame => exact absurd (congrArg (fun p => p.session.phase) hsame) hwakes
      | udp hudp => exact .udp hudp
      | tcp flow hopen hpackets =>
          exact .tcp flow [] hopen .silence (hpackets.trans (List.append_nil _).symm)
  | payload d data =>
      exact (ensureActive_opens options).andThen rfl (fun s hs => planHeard_udp d data hs)
        (fun s flow hs => hs.heard d data) hwakes
  | datagram d data peer =>
      have hasleep : (create options).planReported d data peer = (create options).planNothing := rfl
      exact (ensureActive_opens options).andThen hasleep (fun s hs => planReported_udp d data peer hs)
        (fun s flow hs => hs.reported d data peer) hwakes
  | error => exact .closed (plan_ends _ (.inr rfl)) (planFinish_channel _) (finish_packets _)
  | close => exact .closed (plan_ends _ (.inl rfl)) (planFinish_channel _) (finish_packets _)
  | _ => exact absurd rfl hwakes

/-- Either no event wakes a session or there is a first one that does. -/
theorem sleeps_or_wakes (options : Options) (events : List TimedEvent) :
    (create options).planAll (events.map Prod.snd) = (create options).planNothing ∨
      ∃ idle now e rest, events = idle ++ (now, e) :: rest ∧
        (create options).planAll (idle.map Prod.snd) = (create options).planNothing ∧
        ((create options).plan e).session.phase ≠ .init := by
  induction events with
  | nil => exact .inl rfl
  | cons x events ih =>
      obtain ⟨now, e⟩ := x
      by_cases hasleep : ((create options).plan e).session.phase = .init
      · have hnothing := ((create options).plan_path e).asleep (create_channel options) hasleep
        have hskip : ∀ es, (create options).planAll (e :: es) = (create options).planAll es := by
          intro es
          rw [planAll, hnothing]
          rfl
        rcases ih with hall | ⟨idle, later, e', rest, rfl, hidle, hwakes⟩
        · exact .inl ((hskip _).trans hall)
        · exact .inr ⟨(now, e) :: idle, later, e', rest, rfl, (hskip _).trans hidle, hwakes⟩
      · exact .inr ⟨[], now, e, events, rfl, rfl, hasleep⟩

/-- The bytes of a run are the header and the records of its packets, unless nothing was written yet. -/
theorem written_packets (options : Options) (events : List TimedEvent) :
    ∃ records, (written ((create options).intended events) =
          options.front ++ CaptureFile.encode records ∨
        written ((create options).intended events) = [] ∧ records = []) ∧
      records.map Record.frame = (((create options).planAll
        (events.map Prod.snd)).acts.flatMap Act.packets).map Packet.frame := by
  refine ⟨timedRecords ((create options).timedActs events), ?_, timedRecords_frames events _⟩
  cases howed : ((create options).planAll (events.map Prod.snd)).session.headerOwed with
  | false => exact .inl (written_intended events options howed)
  | true =>
      have hheader := timedActs_headerFirst events (create options)
      rw [howed] at hheader
      have hnone := List.map_eq_nil_iff.mp hheader.nil_of_owed
      rw [intended, hnone]
      exact .inr ⟨rfl, rfl⟩

/-- **The grammar of a TCP capture.** After any events, in any order, the file of a session that is not
on UDP holds no packet if the session was never active; else it holds the handshake, exchanges and one
ending at most. The ending is that of the event which closed the session, and is there if the session was
writing then; the side that stopped first since the session was active, or the client, begins it. -/
theorem capture_grammar (options : Options) (events : List TimedEvent)
    (htcp : ((create options).told events).protocol? ≠ some .udp) :
    let calls := ((create options).run Sink.recording events []).sink.reverse
    ∃ records packets, (written calls = options.front ++ CaptureFile.encode records ∨
        written calls = [] ∧ records = []) ∧
      records.map Record.frame = packets.map Packet.frame ∧
      (((create options).told events).channel = none ∧ packets = [] ∨
        ∃ idle x rest flow dialogue ending, events = idle ++ x :: rest ∧
          ((create options).told idle).channel = none ∧
          ((create options).told (idle ++ [x])).channel = some (.tcp flow) ∧
          packets = openingPackets flow ++ dialogue ++ ending ∧ Dialogue flow dialogue ∧
          Ending flow ((create options).told (idle ++ [x])) rest ending) := by
  dsimp only
  rw [run_recording_calls]
  obtain ⟨records, hwritten, hframes⟩ := written_packets options events
  refine ⟨records, _, hwritten, hframes, ?_⟩
  rcases sleeps_or_wakes options events with hasleep | ⟨idle, now, e, rest, rfl, hidle, hwakes⟩
  · left
    rw [told_eq, hasleep]
    exact ⟨rfl, rfl⟩
  have htold : (create options).told (idle ++ [(now, e)]) = ((create options).plan e).session := by
    rw [told_eq, List.map_append, planAll_append, hidle]
    rfl
  have hplan : (create options).planAll ((idle ++ (now, e) :: rest).map Prod.snd) =
      ((create options).plan e).andThen (planAll (rest.map Prod.snd)) := by
    rw [List.map_append, planAll_append, hidle]
    rfl
  have hlater : (create options).told (idle ++ (now, e) :: rest) =
      ((create options).told (idle ++ [(now, e)])).told rest := by
    rw [List.append_cons, told_append]
  have hpath := planAll_path (rest.map Prod.snd) ((create options).plan e).session
  rw [hplan, Plan.andThen, List.flatMap_append]
  cases create_wakes hwakes with
  | closed hphase hchannel hsilent =>
      left
      rw [hlater, told_eq _ rest, htold, hsilent, (hpath.closed hphase).1]
      exact ⟨(hpath.closed_channel hphase).trans hchannel, rfl⟩
  | udp hudp =>
      rw [← htold] at hudp
      rw [hlater] at htcp
      exact absurd ((told_leads (told_inStep options _) rest).protocol? hudp) htcp
  | tcp flow said hopen hspeech hpackets =>
      right
      -- the payload that opened the session may have moved the counters of the flow already
      obtain ⟨f, hf, hends⟩ := hopen.channel
      have hopenOn : ((create options).plan e).session.OpenOn f none :=
        ⟨hopen.active, hopen.holds, hopen.initiator, f, hf, .refl f⟩
      obtain ⟨dialogue, ending, hrest, hspeech', hending⟩ := hopenOn.grammar rest
      refine ⟨idle, (now, e), rest, f, said ++ dialogue, ending, rfl, ?_, htold ▸ hf, ?_,
        (hspeech.of_sameEnds hends).append hspeech', htold.symm ▸ hending⟩
      · rw [told_eq, hidle]
        rfl
      · rw [hpackets, hrest, openingPackets_of_sameEnds hends]
        simp only [List.append_assoc]

/-- The first payload opens the session; one comes after the end. -/
def hastyTalk : List TimedEvent :=
  [.pause, .payload .inbound ⟨#[97, 98]⟩, .shutdown .outbound, .datagram .outbound ⟨#[99]⟩
    (.v4 ⟨10, 0, 0, 1⟩ 4000), .active none, .close, .payload .inbound ⟨#[100]⟩].map fun e => (.epoch, e)

theorem capture_grammar_hasty :
    let told := (create servingOptions).told hastyTalk
    told.protocol? ≠ some .udp ∧ told.phase = .closed ∧ told.initiator = some .server ∧
      ∃ (records : List Record) (idle : List TimedEvent) (x : TimedEvent) (rest : List TimedEvent)
          (flow : Flow) (dialogue ending : List Packet), hastyTalk = idle ++ x :: rest ∧
        records.map Record.frame =
          (openingPackets flow ++ dialogue ++ ending).map Packet.frame ∧
        Dialogue flow dialogue ∧
        Ending flow ((create servingOptions).told (idle ++ [x])) rest ending := by
  have htcp : ((create servingOptions).told hastyTalk).protocol? ≠ some .udp := by decide
  refine ⟨htcp, by decide, by decide, ?_⟩
  obtain ⟨records, packets, -, hframes, hparts⟩ := capture_grammar servingOptions hastyTalk htcp
  rcases hparts with hnone | hparts
  · exact absurd hnone.1 (by decide)
  · obtain ⟨idle, x, rest, flow, dialogue, ending, hevents, -, -, rfl, hspeech, hending⟩ := hparts
    exact ⟨records, idle, x, rest, flow, dialogue, ending, hevents, hframes, hspeech, hending⟩

end Session

end Wiretap
