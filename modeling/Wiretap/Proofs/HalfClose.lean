import Wiretap.Proofs.GivenEnds
import Wiretap.Proofs.Grammar

/-! Who ends a flow whose ends were given up front. The first half-close that an active session is told of
decides it for good, whatever comes after and whatever the sink answers. A half-close that comes before the
session is active is meant to decide as well, but is not heard: which side it comes from is only known
through the channel, and there is none yet. -/

namespace Wiretap

/-- The event makes a session active whose ends were given up front. -/
def Event.wakes : Event → Bool
  | .active _ => true
  | .payload _ _ => true
  | .datagram _ _ _ => true
  | _ => false

/-- What a session with ends given up front is told before it becomes active. -/
def unheard (events : List Event) : List Event := events.takeWhile fun e => !e.wakes

/-- What it is told from then on. -/
def heard (events : List Event) : List Event := events.dropWhile fun e => !e.wakes

/-- The flow of TCP ends that were given up front. -/
def givenFlow (server client : SocketAddress) (localIsServer : Bool) : Flow :=
  ⟨client.endpoint, server.endpoint, localIsServer, 0, 0⟩

theorem heard_of_wakes {e : Event} (he : e.wakes = true) (events : List Event) :
    heard (e :: events) = e :: events := by
  rw [heard, List.dropWhile_cons, he]
  rfl

theorem heard_of_not_wakes {e : Event} (he : e.wakes = false) (events : List Event) :
    heard (e :: events) = heard events := by
  rw [heard, List.dropWhile_cons, he]
  rfl

theorem firstToStop?_of_not_shutdown (flow : Flow) {e : Event} (he : ∀ d, e ≠ .shutdown d) :
    firstToStop? flow [e] = none := by
  cases e with
  | shutdown d => exact absurd rfl (he d)
  | _ => rfl

theorem firstToStop?_cons (flow : Flow) (e : Event) (events : List Event) :
    firstToStop? flow (e :: events) = (firstToStop? flow [e]).or (firstToStop? flow events) :=
  firstToStop?_append flow [e] events

theorem Event.wakes_ne_shutdown {e : Event} (he : e.wakes = true) (d : Direction) : e ≠ .shutdown d := by
  rintro rfl
  cases he

/-! ### What is written first -/

section

variable {σ : Type} {sink : Sink σ} {now : Timestamp} {e : Event} {s : Session} {w : σ × List Answer}

theorem Sink.append_traced_suffix (sink : Sink σ) (bytes : Bytes) (w : σ × List Answer) :
    ∃ o, (SinkCall.write bytes, o) :: w.2 <:+ (sink.traced.append bytes w).2.2 := by
  obtain ⟨o, more, hlog, -⟩ := sink.append_traced bytes w
  exact ⟨o, more, hlog.symm⟩

/-- A deed leaves what was called before it. -/
theorem SessionDeed.suffix {x y : Session × σ × List Answer} (h : SessionDeed sink.traced now e x y) :
    x.2.2 <:+ y.2.2 := by
  cases h with
  | @appends s w header packets hholds hends =>
      obtain ⟨o, hwritten⟩ := sink.append_traced_suffix (Act.content now header packets) w
      exact (List.suffix_cons _ _).trans hwritten
  | closes hholds => exact List.suffix_cons _ _
  | _ => exact List.suffix_rfl

namespace Session

theorem Deeds.suffix {r : Reply (σ × List Answer)} (h : s.Deeds sink.traced now e w r) :
    w.2 <:+ r.sink.2 :=
  h.keeps (P := fun y => w.2 <:+ y.2.2) (fun _ _ hdeed hx => hx.trans hdeed.suffix) List.suffix_rfl

theorem writeBatch_writes (sink : Sink σ) (now : Timestamp) (w : σ × List Answer) (packets : List Packet)
    (hholds : s.holdsSink = true) :
    ∃ o, (SinkCall.write (Act.content now s.headerOwed packets), o) :: w.2 <:+
      (s.writeBatch sink.traced (packets.map (Packet.record now)) w).sink.2 := by
  obtain ⟨o, hwritten⟩ := sink.append_traced_suffix (Act.content now s.headerOwed packets) w
  refine ⟨o, ?_⟩
  unfold Act.content at hwritten
  unfold writeBatch
  rw [if_pos hholds]
  dsimp only
  generalize sink.traced.append _ w = a at hwritten ⊢
  obtain ⟨_ | e | _, x⟩ := a
  · exact hwritten
  · have hclosed : _ <:+ (sink.traced.call .close x).2.2 := hwritten.trans (List.suffix_cons _ x.2)
    dsimp only
    split
    · exact hwritten
    · split
      all_goals
        rename_i hcall
        rw [hcall] at hclosed
        exact hclosed
  · exact hwritten

/-- What is written before the session is finished is in the trace when it is. -/
theorem finished_suffix {log : List Answer} {r : Reply (σ × List Answer)} (h : log <:+ r.sink.2) :
    log <:+ (r.andThen (finish sink.traced)).sink.2 := by
  unfold Reply.andThen
  split
  · have hfinish : r.session.Deeds sink.traced .epoch .close r.sink _ :=
      finish_deeds r.session r.sink
    exact h.trans hfinish.suffix
  · exact h

/-- Closing a session that writes a flow opens with the closing sequence of the initiator. -/
theorem close_writes {f : Flow} (hphase : s.phase = .writing) (hholds : s.holdsSink = true)
    (hchannel : s.channel = some (.tcp f)) :
    ∃ o, (SinkCall.write (Act.content now s.headerOwed (finPackets f s.closeInitiator)), o) :: w.2 <:+
      (s.close sink.traced now w).sink.2 := by
  have hwriting : s.isWriting = true := s.isWriting_iff.mpr hphase
  have hopen : s.phase ≠ .closed := by rw [hphase]; exact Phase.noConfusion
  obtain ⟨o, hwritten⟩ := writeBatch_writes (s := { s with channel := some (.tcp (f.close _).2) })
    sink now w (finPackets f s.closeInitiator) hholds
  refine ⟨o, ?_⟩
  unfold close
  rw [if_neg hopen, hwriting, hchannel]
  dsimp only
  rw [bareRecords_eq, close_packets]
  exact finished_suffix hwritten

/-- Its failure is recorded as a reset from the initiator. -/
theorem error_writes {f : Flow} (hphase : s.phase = .writing) (hholds : s.holdsSink = true)
    (hchannel : s.channel = some (.tcp f)) :
    ∃ o, (SinkCall.write (Act.content now s.headerOwed (rstPackets f s.closeInitiator)), o) :: w.2 <:+
      (s.error sink.traced now w).sink.2 := by
  have hwriting : s.isWriting = true := s.isWriting_iff.mpr hphase
  have hopen : s.phase ≠ .closed := by rw [hphase]; exact Phase.noConfusion
  obtain ⟨o, hwritten⟩ := writeBatch_writes sink now w (rstPackets f s.closeInitiator) hholds
  refine ⟨o, ?_⟩
  unfold error
  rw [if_neg hopen, hwriting, hchannel]
  dsimp only
  rw [bareRecords_eq, reset_packets]
  exact finished_suffix hwritten

end Session

end

/-! ### Who stopped first -/

/-- The session is in step, and has no channel but the flow with counters of any kind. -/
structure Session.FlowsOn (options : Options) (flow : Flow) (s : Session) : Prop where
  inStep : s.InStep options
  channel : ∀ c, s.channel = some c → (Channel.tcp flow).SameEnds c

section

variable {σ : Type} {sink : Sink σ} {now : Timestamp} {e : Event} {options : Options} {flow : Flow}

/-- Only a half-close marks a side. -/
theorem SessionDeed.initiator {x y : Session × σ} (h : SessionDeed sink now e x y)
    (he : ∀ d, e ≠ .shutdown d) : y.1.initiator = x.1.initiator := by
  cases h with
  | marks d htold => exact absurd htold (he d)
  | _ => rfl

/-- A session opens on nothing but the ends that were given. -/
theorem SessionDeed.channel {x y : Session × σ} (h : SessionDeed sink now e x y)
    (hgiven : ∀ info, options.channel? info = some (.tcp flow))
    (hx : x.1.options = options ∧ ∀ c, x.1.channel = some c → (Channel.tcp flow).SameEnds c) :
    y.1.options = options ∧ ∀ c, y.1.channel = some c → (Channel.tcp flow).SameEnds c := by
  obtain ⟨hoptions, hsame⟩ := hx
  cases h with
  | opens channel hphase hchannel =>
      refine ⟨hoptions, fun c hc => ?_⟩
      rw [hoptions, hgiven] at hchannel
      cases hchannel
      cases hc
      exact ⟨rfl, rfl, rfl⟩
  | counts hphase hchannel hends =>
      refine ⟨hoptions, fun c hc => ?_⟩
      cases hc
      exact Flow.SameEnds.trans (hsame _ hchannel) hends
  | _ => exact ⟨hoptions, hsame⟩

namespace Session

variable {s : Session} {w : σ}

theorem finish_closes (s : Session) (w : σ) : (s.finish sink w).session.phase = .closed := by
  unfold finish
  split
  · split
    · rfl
    · dsimp only
      split
      · rfl
      · split <;> rfl
  · rfl

theorem run_stays_closed (events : List TimedEvent) (hs : s.phase = .closed) :
    (s.run sink events w).session.phase = .closed :=
  run_keeps (P := fun y => y.1.phase = .closed) (fun _ _ hturn h => hturn.moves.closed h) events hs

/-- An open session has the flow. -/
theorem FlowsOn.open_flow (h : s.FlowsOn options flow) (hinit : s.phase ≠ .init)
    (hclosed : s.phase ≠ .closed) : ∃ f, s.channel = some (.tcp f) ∧ flow.SameEnds f := by
  have hphase := active_of_not_idle fun hidle => hidle.elim hinit hclosed
  obtain ⟨c, hc⟩ := Option.ne_none_iff_exists'.mp (h.inStep.set hphase)
  have hsame := h.channel c hc
  cases c with
  | tcp f => exact ⟨f, hc, hsame⟩
  | udp near far => exact hsame.elim

theorem FlowsOn.handle (h : s.FlowsOn options flow)
    (hgiven : ∀ info, options.channel? info = some (.tcp flow)) (now : Timestamp) (e : Event) :
    (s.handle sink now e w).session.FlowsOn options flow := by
  have hturn : SessionTurn sink (s, w) _ := handle_turn now e s w
  refine ⟨(hturn.inStep h.inStep).1, ?_⟩
  exact ((handle_deeds now e s w).keeps (fun _ _ hdeed hx => hdeed.channel hgiven hx)
    ⟨h.inStep.given, h.channel⟩).2

theorem create_flowsOn (options : Options) (flow : Flow) : (create options).FlowsOn options flow :=
  ⟨create_inStep options, by rintro c ⟨⟩⟩

theorem FlowsOn.run (h : s.FlowsOn options flow)
    (hgiven : ∀ info, options.channel? info = some (.tcp flow)) (events : List TimedEvent) :
    (s.run sink events w).session.FlowsOn options flow := by
  induction events generalizing s w with
  | nil => exact h
  | cons x rest ih => exact ih (h.handle hgiven x.1 x.2)

theorem handle_initiator_of_not_shutdown (he : ∀ d, e ≠ .shutdown d) (s : Session) (w : σ) :
    (s.handle sink now e w).session.initiator = s.initiator :=
  (handle_deeds now e s w).keeps (P := fun y => y.1.initiator = s.initiator)
    (fun _ _ hdeed hx => (hdeed.initiator he).trans hx) rfl

/-- An open session remembers the first half-close that it is told of. -/
theorem FlowsOn.initiator (h : s.FlowsOn options flow) (hinit : s.phase ≠ .init)
    (hclosed : s.phase ≠ .closed) (now : Timestamp) (e : Event) :
    (s.handle sink now e w).session.initiator = s.initiator.or (firstToStop? flow [e]) := by
  cases e with
  | shutdown d =>
      obtain ⟨f, hf, hsame⟩ := h.open_flow hinit hclosed
      change (s.shutdown d w).session.initiator = s.initiator.or (some (flow.sender d))
      unfold shutdown
      rw [s.flow?_eq_some_iff.mpr hf, ← hsame.sender]
      cases hinitiator : s.initiator with
      | none => rfl
      | some side => exact hinitiator
  | _ =>
      rw [firstToStop?_of_not_shutdown flow (by rintro d ⟨⟩), Option.or_none]
      exact handle_initiator_of_not_shutdown (by rintro d ⟨⟩) s w

/-- **A session that is open all along remembers the first half-close of them all.** -/
theorem FlowsOn.run_initiator (h : s.FlowsOn options flow)
    (hgiven : ∀ info, options.channel? info = some (.tcp flow)) (hinit : s.phase ≠ .init)
    (events : List TimedEvent) (hend : (s.run sink events w).session.phase ≠ .closed) :
    (s.run sink events w).session.initiator =
      s.initiator.or (firstToStop? flow (events.map Prod.snd)) := by
  induction events generalizing s w with
  | nil => exact Option.or_none.symm
  | cons x rest ih =>
      have hclosed : s.phase ≠ .closed := fun hs => hend (run_stays_closed (x :: rest) hs)
      have hrest := ih (h.handle hgiven x.1 x.2) (handle_ne_init x.1 x.2 s w hinit) hend
      rw [h.initiator hinit hclosed, Option.or_assoc, ← firstToStop?_cons] at hrest
      exact hrest

/-! ### Waking up -/

theorem payload_wakes {f : ForcedChannel} (hphase : s.phase = .init) (hforced : s.options.forced = some f)
    (d : Direction) (data : ByteArray) : (s.payload sink now d data w).session.phase ≠ .init := by
  have hopened : (s.activate sink now none w).session.phase ≠ .init := activate_ne_init sink hforced none
  have hcombines := payload_combines sink now w hphase hforced d data
  by_cases hpanic : (s.activate sink now none w).result = .panicked
  · rw [(hcombines.broken hpanic).2.1]
    exact hopened
  · rw [(hcombines.both hpanic).1]
    exact handle_ne_init now (.payload d data) _ _ hopened

/-- A session that was given TCP ends is awake after the first event that wakes such sessions. -/
theorem create_wakes_up {server client : SocketAddress} {localIsServer : Bool}
    (hforced : options.forced = some (.tcp server client localIsServer)) (he : e.wakes = true) :
    ((create options).handle sink now e w).session.phase ≠ .init := by
  cases e with
  | active connection => exact activate_ne_init sink hforced connection
  | payload d data => exact payload_wakes rfl hforced d data
  | datagram d data peer =>
      have hsome : (create options).options.forced.isSome = true := by
        rw [create_options, hforced]
        rfl
      change ((create options).datagram sink now d data peer w).session.phase ≠ .init
      by_cases hdone : ((create options).activate sink now none w).result = .done
      · obtain ⟨flow, hsession⟩ := activate_done hforced hdone
        rw [(datagram_of_activate rfl rfl hsome hdone (congrArg Session.phase hsession)
          (congrArg Session.channel hsession)).session]
        exact activate_ne_init sink hforced none
      · rw [(datagram_of_activate_failed rfl rfl hsome hdone).session]
        exact payload_wakes rfl hforced d data
  | _ => cases he

/-- What comes before a session is awake leaves it as it was, or closes it. -/
theorem create_sleeps (he : e.wakes = false) :
    (((create options).handle sink now e w).session = create options ∧
        ((create options).handle sink now e w).sink = w) ∨
      ((create options).handle sink now e w).session.phase = .closed := by
  cases e with
  | shutdown d => exact .inl ⟨rfl, rfl⟩
  | pause => exact .inl ⟨rfl, rfl⟩
  | resume => exact .inl ⟨rfl, rfl⟩
  | error => exact .inr (finish_closes (create options) w)
  | close => exact .inr (finish_closes (create options) w)
  | _ => cases he

/-- A session with TCP ends given up front remembers the first half-close that it heard. -/
theorem created_initiator {server client : SocketAddress} {localIsServer : Bool}
    (hforced : options.forced = some (.tcp server client localIsServer)) (events : List TimedEvent)
    (hend : ((create options).run sink events w).session.phase ≠ .closed) :
    ((create options).run sink events w).session.initiator =
      firstToStop? (givenFlow server client localIsServer) (heard (events.map Prod.snd)) := by
  have hgiven : ∀ info, options.channel? info = some (.tcp (givenFlow server client localIsServer)) :=
    Options.channel?_forced hforced
  induction events generalizing w with
  | nil => rfl
  | cons x rest ih =>
      rw [List.map_cons]
      cases hwakes : x.2.wakes with
      | true =>
          have hcreated := create_flowsOn options (givenFlow server client localIsServer)
          have hrest := (hcreated.handle hgiven x.1 x.2 (w := w)).run_initiator hgiven
            (create_wakes_up hforced hwakes) rest hend
          rw [handle_initiator_of_not_shutdown (Event.wakes_ne_shutdown hwakes)] at hrest
          rw [heard_of_wakes hwakes, firstToStop?_cons,
            firstToStop?_of_not_shutdown _ (Event.wakes_ne_shutdown hwakes)]
          exact hrest
      | false =>
          rw [heard_of_not_wakes hwakes]
          rcases create_sleeps hwakes with ⟨hsession, hsink⟩ | hclosed
          · -- the session is as it was created, so the rest of the run starts where this one does
            have hskip : ((create options).run sink (x :: rest) w).session =
                ((create options).run sink rest w).session := by
              change (((create options).handle sink x.1 x.2 w).session.run sink rest _).session = _
              rw [hsession, hsink]
            rw [hskip] at hend ⊢
            exact ih hend
          · exact absurd (run_stays_closed rest hclosed) hend

end Session

end

namespace Session

/-- **The first half-close that is heard decides who ends the flow.** A session with TCP ends given up front
that is writing closes with the closing sequence, and fails with the reset, of the side that was first to
stop since the session became active, or of the client; this is so whatever the sink answers. It is the
side that was first to stop at all, unless a half-close of the other side came before the session was
active. -/
theorem half_close_decides {options : Options} {server client : SocketAddress} {localIsServer : Bool}
    (hforced : options.forced = some (.tcp server client localIsServer)) {σ : Type} (sink : Sink σ)
    (w : σ) (events : List TimedEvent)
    (hwriting : ((create options).run sink.traced events (w, [])).session.phase = .writing) :
    let course := (create options).run sink.traced events (w, [])
    let told := events.map Prod.snd
    let flow := givenFlow server client localIsServer
    let side := (firstToStop? flow (heard told)).getD .client
    course.session.closeInitiator = side ∧
      (∃ f, course.session.channel = some (.tcp f) ∧ flow.SameEnds f ∧ ∀ now,
        let content := Act.content now course.session.headerOwed
        (∃ o, (SinkCall.write (content (finPackets f side)), o) :: course.sink.2 <:+
          (course.session.handle sink.traced now .close course.sink).sink.2) ∧
        ∃ o, (SinkCall.write (content (rstPackets f side)), o) :: course.sink.2 <:+
          (course.session.handle sink.traced now .error course.sink).sink.2) ∧
      (side = (firstToStop? flow told).getD .client ↔
        ∀ early, firstToStop? flow (unheard told) = some early → early = side) := by
  intro course told flow side
  have hgiven : ∀ info, options.channel? info = some (.tcp flow) := Options.channel?_forced hforced
  have hclosed : course.session.phase ≠ .closed := by rw [hwriting]; exact Phase.noConfusion
  have hinit : course.session.phase ≠ .init := by rw [hwriting]; exact Phase.noConfusion
  have hinitiator : course.session.closeInitiator = side :=
    congrArg (fun o : Option Side => o.getD .client) (created_initiator hforced events hclosed)
  have hflows : course.session.FlowsOn options flow := (create_flowsOn options flow).run hgiven events
  refine ⟨hinitiator, ?_, ?_⟩
  · obtain ⟨f, hf, hsame⟩ := hflows.open_flow hinit hclosed
    have hholds : course.session.holdsSink = true := hflows.inStep.holds.mpr hclosed
    refine ⟨f, hf, hsame, fun now => ?_⟩
    rw [← hinitiator]
    exact ⟨close_writes hwriting hholds hf, error_writes hwriting hholds hf⟩
  · have htold : firstToStop? flow told =
        (firstToStop? flow (unheard told)).or (firstToStop? flow (heard told)) := by
      rw [← firstToStop?_append, unheard, heard, List.takeWhile_append_dropWhile]
    rw [htold]
    cases firstToStop? flow (unheard told) with
    | none => exact ⟨fun _ early hearly => absurd hearly.symm (Option.some_ne_none early), fun _ => rfl⟩
    | some early =>
        refine ⟨fun hside other hother => ?_, fun hall => (hall early rfl).symm⟩
        cases hother
        exact hside.symm

/-- The service stops first, while the session is paused; the client stops after it. -/
def serviceStops : List TimedEvent :=
  [.pause, .payload .inbound ⟨#[97]⟩, .pause, .shutdown .outbound, .shutdown .inbound, .resume].map
    fun e => (.epoch, e)

theorem half_close_decides_service :
    let course := (create namedOptions).run Sink.rehearsed.traced serviceStops ({}, [])
    let flow := givenFlow (.v4 ⟨10, 0, 0, 2⟩ 80) (.v4 ⟨10, 0, 0, 1⟩ 4000) true
    namedOptions.forced = some (.tcp (.v4 ⟨10, 0, 0, 2⟩ 80) (.v4 ⟨10, 0, 0, 1⟩ 4000) true) ∧
      course.session.phase = .writing ∧ course.session.closeInitiator = .server ∧
      firstToStop? flow (serviceStops.map Prod.snd) = some .server ∧
      ∃ f, course.session.channel = some (.tcp f) ∧ flow.SameEnds f ∧
        ∃ o, (SinkCall.write (Act.content .epoch course.session.headerOwed (finPackets f .server)), o) ::
          course.sink.2 <:+
            (course.session.handle Sink.rehearsed.traced .epoch .close course.sink).sink.2 := by
  have hwriting : ((create namedOptions).run Sink.rehearsed.traced serviceStops
      ({}, [])).session.phase = .writing := by decide
  obtain ⟨hside, ⟨f, hf, hsame, hends⟩, -⟩ := half_close_decides
    (show namedOptions.forced = some (.tcp (.v4 ⟨10, 0, 0, 2⟩ 80) (.v4 ⟨10, 0, 0, 1⟩ 4000) true) from rfl)
    Sink.rehearsed {} serviceStops hwriting
  exact ⟨rfl, hwriting, hside, by decide, f, hf, hsame, (hends .epoch).1⟩

/-- The service stops before its session is active, and the client is taken to have stopped first. -/
theorem half_close_lost :
    let events : List TimedEvent := [(.epoch, .shutdown .outbound), (.epoch, .active none)]
    let course := (create namedOptions).run Sink.recording events []
    let flow := givenFlow (.v4 ⟨10, 0, 0, 2⟩ 80) (.v4 ⟨10, 0, 0, 1⟩ 4000) true
    let close := course.session.handle Sink.recording .epoch .close course.sink
    let error := course.session.handle Sink.recording .epoch .error course.sink
    course.session.phase = .writing ∧ flow.sender .outbound = .server ∧
      ∃ f, course.session.channel = some (.tcp f) ∧
        close.sink = [.close, .flush, .write (Act.content .epoch false (finPackets f .client))] ++
          course.sink ∧
        Act.content .epoch false (finPackets f .client) ≠
          Act.content .epoch false (finPackets f .server) ∧
        error.sink = [.close, .flush, .write (Act.content .epoch false (rstPackets f .client))] ++
          course.sink ∧
        Act.content .epoch false (rstPackets f .client) ≠
          Act.content .epoch false (rstPackets f .server) :=
  ⟨by decide, rfl, _, rfl, rfl, by decide, rfl, by decide⟩

end Session

end Wiretap
