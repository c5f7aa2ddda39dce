import Wiretap.Proofs.Datagrams
import Wiretap.Proofs.Likeness
import Wiretap.Proofs.Upkeep

/-! Ends given up front and ends reported when the connection becomes active make the same capture. The
first are the service and the client, or near and far; the second are always near and far, and for TCP it
is the role of the near end that says which of them is the service. A session that was given its ends may
also become active by its first payload, which then does what the activation and the payload do. -/

namespace Wiretap

/-- The connection has the ends, the transport and the role that were given up front. -/
inductive ForcedChannel.Names : ForcedChannel → Connection → Prop
  | service {server client near far : SocketAddress} (hnear : near.endpoint = server.endpoint)
      (hfar : far.endpoint = client.endpoint) :
      ForcedChannel.Names (.tcp server client true) ⟨near, some far, .tcp true⟩
  | client {server client near far : SocketAddress} (hnear : near.endpoint = client.endpoint)
      (hfar : far.endpoint = server.endpoint) :
      ForcedChannel.Names (.tcp server client false) ⟨near, some far, .tcp false⟩
  | udp {near far near' far' : SocketAddress} (hnear : near'.endpoint = near.endpoint)
      (hfar : far'.endpoint = far.endpoint) :
      ForcedChannel.Names (.udp near far) ⟨near', some far', .udp⟩

/-- The options without the ends. -/
def Options.unforced (o : Options) : Options := { o with forced := none }

/-- The session but for the ends that it was given. -/
def Session.unforced (s : Session) : Session := { s with options := s.options.unforced }

theorem ForcedChannel.Names.channel {f : ForcedChannel} {c : Connection} (h : f.Names c) :
    c.channel = f.channel := by
  cases h with
  | service hnear hfar =>
      simp only [Connection.channel, ForcedChannel.channel, Option.map_some, Option.getD_some, hnear,
        hfar]
      rfl
  | client hnear hfar =>
      simp only [Connection.channel, ForcedChannel.channel, Option.map_some, Option.getD_some, hnear,
        hfar]
      rfl
  | udp hnear hfar =>
      simp only [Connection.channel, ForcedChannel.channel, Option.map_some, hnear, hfar]

/-- One reply is what comes of two operations after each other, as far as the second is made: nothing
comes after a panic. It fails as the first or the second of them does. -/
structure Reply.Combines {σ τ : Type} (R : σ → τ → Prop) (whole : Reply σ) (first second : Reply τ) :
    Prop where
  both : first.result ≠ .panicked → whole.session = second.session ∧ R whole.sink second.sink ∧
    ∀ r, r ≠ .done → (whole.result = r ↔ first.result = r ∨ second.result = r)
  broken : first.result = .panicked →
    whole.result = .panicked ∧ whole.session = first.session ∧ R whole.sink first.sink

/-! ### The view without ends given up front -/

/-- The ends are not given up front. -/
def View.ungiven : View := ⟨fun _ => none, false⟩

/-- The session as it is. -/
def View.same : View := ⟨id, false⟩

namespace View

theorem same_session (s : Session) : same.session s = s := session_of_not_turned rfl s

theorem same_agrees (o : Options) (connection : Option Connection) :
    same.Agrees o connection connection := agrees_of_not_turned rfl rfl

theorem ungiven_session (s : Session) : ungiven.session s = s.unforced := session_of_not_turned rfl s

theorem ungiven_agrees {o : Options} {f : ForcedChannel} {c : Connection} (hforced : o.forced = some f)
    (hnames : f.Names c) (info : Option Connection) : ungiven.Agrees o info (some c) := by
  refine agrees_of_not_turned rfl ?_
  rw [Options.channel?_forced hforced, ← hnames.channel]
  rfl

end View

/-- The two operations may be made elsewhere, where they are seen to be the same. -/
theorem Reply.Combines.seen {σ τ : Type} {R : σ → τ → Prop} {whole first second : Reply σ}
    {first' second' : Reply τ} (h : Reply.Combines Eq whole first second)
    (hfirst : Reply.Seen View.same R first first') (hsecond : Reply.Seen View.same R second second') :
    Reply.Combines R whole first' second' := by
  obtain ⟨hresult, hsession, hsink⟩ := hfirst
  obtain ⟨hresult', hsession', hsink'⟩ := hsecond
  rw [View.same_session] at hsession hsession'
  refine ⟨fun hcalm => ?_, fun hpanic => ?_⟩
  · obtain ⟨hlast, hwritten, hfails⟩ := h.both (by rwa [hresult] at hcalm)
    refine ⟨hlast.trans hsession'.symm, hwritten ▸ hsink', fun r hr => ?_⟩
    rw [hresult, hresult']
    exact hfails r hr
  · obtain ⟨hbroken, hlast, hwritten⟩ := h.broken (hresult.symm.trans hpanic)
    exact ⟨hbroken, hlast.trans hsession.symm, hwritten ▸ hsink⟩

namespace Session

section

variable {σ τ : Type} {sink : Sink σ} {image : Sink τ} {C : SinkCall → SinkCall → Prop}
  {R : σ → τ → Prop} {s : Session} {w : σ} {u : τ} {now now' : Timestamp}

theorem handle_ne_init (now : Timestamp) (e : Event) (s : Session) (w : σ) (hs : s.phase ≠ .init) :
    (s.handle sink now e w).session.phase ≠ .init :=
  (handle_turn now e s w).moves.ne_init hs

/-- A session with ends given up front is awake once the connection became active. -/
theorem activate_ne_init (sink : Sink σ) {f : ForcedChannel} (hforced : s.options.forced = some f)
    (info : Option Connection) : (s.activate sink now info w).session.phase ≠ .init := by
  by_cases hphase : s.phase = .init
  · obtain ⟨addresses, hstart⟩ := activate_starts sink now w hphase
      (Options.channel?_forced hforced info)
    rw [hstart]
    exact (start_awake now addresses f.channel s w).1
  · exact handle_ne_init now (.active info) s w hphase

/-- What a session does once it does again, where the sinks answer alike. -/
theorem handle_again (hsinks : sink.Resembles image C R) (htimes : SinkCall.Covers C now now')
    (hw : R w u) (s : Session) (e : Event) :
    Reply.Seen View.same R (s.handle sink now e w) (s.handle image now' e u) := by
  have hshows : View.same.Shows sink now s w e e :=
    View.shows_itself rfl sink s w now e fun _ => View.same_agrees s.options
  have hseen := handle_seen hsinks htimes hw hshows
  rwa [View.same_session] at hseen

/-- The run of a session that was given its ends is that of one that has them reported. -/
theorem run_reported (hsinks : sink.Resembles image C R) {f : ForcedChannel} {reported : Connection}
    (hforced : s.options.forced = some f) (hnames : f.Names reported) (info : Option Connection)
    (htimes : SinkCall.Covers C now now') {events events' : List TimedEvent}
    (hevents : SinkCall.Paired C id events events') (hw : R w u) :
    let here := s.run sink ((now, .active info) :: events) w
    let there := s.unforced.run image ((now', .active (some reported)) :: events') u
    there.results = here.results ∧ there.session = here.session.unforced ∧ R here.sink there.sink := by
  have hopens : View.ungiven.Shows sink now s w (.active info) (.active (some reported)) :=
    .active fun _ => View.ungiven_agrees hforced hnames info
  obtain ⟨hresult, hsession, hsink⟩ := handle_seen hsinks htimes hw hopens
  have hawake : (s.handle sink now (.active info) w).session.phase ≠ .init :=
    activate_ne_init sink hforced info
  have hshows : ∀ (s : Session) (w : σ) (now : Timestamp) (e : Event), s.phase ≠ .init →
      View.ungiven.Shows sink now s w e e := by
    intro s w now e hs
    exact View.shows_itself rfl sink s w now e fun hinit => absurd hinit hs
  obtain ⟨hresults, hlast, hsinks'⟩ := run_seen hsinks hshows
    (fun s w now e hs => handle_ne_init now e s w hs) hevents hsink hawake
  simp only [View.ungiven_session] at hresult hsession hsink hresults hlast hsinks'
  simp only [run]
  rw [hsession]
  exact ⟨by rw [hresult, hresults], hlast, hsinks'⟩

/-! ### The first payload -/

theorem payload_of_closed (sink : Sink σ) (now : Timestamp) (w : σ) (hphase : s.phase = .closed)
    (d : Direction) (data : ByteArray) : (s.payload sink now d data w).Agrees (s.quiet w []) := by
  rw [payload, ensureActive_awake (by rw [hphase]; exact Phase.noConfusion)]
  refine (Reply.andThen_of_done rfl).trans ?_
  simp only [quiet, hphase, or_true, if_true]
  exact ⟨rfl, rfl, rfl⟩

theorem activate_failed_closed {e : CaptureError} {connection : Option Connection}
    (hfailed : (s.activate sink now connection w).result = .failed e) :
    (s.activate sink now connection w).session.phase = .closed := by
  cases activate_carries sink now connection s w with
  | done hcalls hresult => rw [hresult] at hfailed; cases hfailed
  | failed hbreaks hresult hphase => exact hphase
  | panicked hpanic hresult => rw [hresult] at hfailed; cases hfailed

/-- A payload that wakes a session with ends given up front does what being told that the connection is
active and then the payload do. -/
theorem payload_combines (sink : Sink σ) (now : Timestamp) (w : σ) {f : ForcedChannel}
    (hphase : s.phase = .init) (hforced : s.options.forced = some f) (d : Direction) (data : ByteArray) :
    let opened := s.activate sink now none w
    Reply.Combines Eq (s.payload sink now d data w) opened
      (opened.session.payload sink now d data opened.sink) := by
  intro opened
  have hends : s.options.forced.isSome = true := by rw [hforced]; rfl
  have hfails : opened.result ≠ .done → s.payload sink now d data w = opened := by
    intro hopened
    have hfirst : s.ensureActive sink now w = opened := by rw [ensureActive, if_pos ⟨hphase, hends⟩]
    rw [payload, hfirst, Reply.andThen_of_ne_done hopened]
  cases hopened : opened.result with
  | done =>
      have hwhole : (s.payload sink now d data w).Agrees
          (opened.session.payload sink now d data opened.sink) :=
        payload_of_activate hphase hends hopened (activate_ne_init sink hforced none)
      refine ⟨fun _ => ⟨hwhole.session, hwhole.sink, fun r hr => ?_⟩, fun hpanic => by
        rw [hopened] at hpanic; cases hpanic⟩
      rw [hwhole.result, hopened]
      exact (or_iff_right hr.symm).symm
  | failed e =>
      rw [hfails (by rw [hopened]; exact Result.noConfusion)]
      -- the failed activation closed the session, and the payload that comes after it is skipped
      have hheard := payload_of_closed sink now opened.sink (activate_failed_closed hopened) d data
      refine ⟨fun _ => ⟨hheard.session.symm, hheard.sink.symm, fun r hr => ?_⟩, fun hpanic => by
        rw [hopened] at hpanic; cases hpanic⟩
      rw [hheard.result]
      exact (or_iff_left hr.symm).symm
  | panicked =>
      rw [hfails (by rw [hopened]; exact Result.noConfusion)]
      exact ⟨fun hcalm => absurd hopened hcalm, fun _ => ⟨hopened, rfl, rfl⟩⟩

/-! ### The two captures -/

/-- **Ends given up front and ends reported are the same capture.** A session that was given its ends and
is told that the connection is active, with whatever report, makes from then on what a session makes that
has the same ends reported: the same calls, results and states, whatever the sink answers; with clocks of
their own the calls are the same but for the times of the records. A payload that wakes such a session is
the activation and then the payload, and fails if one of these does. -/
theorem forced_like_reported {options : Options} {forced : ForcedChannel}
    (hforced : options.forced = some forced) :
    (∀ (reported : Connection) (info : Option Connection), forced.Names reported →
      (∀ {σ : Type} (sink : Sink σ) (w : σ) (now : Timestamp) (events : List TimedEvent),
        let here := (create options).run sink.traced ((now, .active info) :: events) (w, [])
        let there := (create options.unforced).run sink.traced
          ((now, .active (some reported)) :: events) (w, [])
        there.results = here.results ∧ there.session = here.session.unforced ∧
          there.sink = here.sink) ∧
      ∀ (now now' : Timestamp) (events events' : List TimedEvent) (outcomes : List Outcome),
        events'.map Prod.snd = events.map Prod.snd →
        let here := (create options).run Sink.rehearsed ((now, .active info) :: events)
          { answers := outcomes }
        let there := (create options.unforced).run Sink.rehearsed
          ((now', .active (some reported)) :: events') { answers := outcomes }
        there.results = here.results ∧ there.session = here.session.unforced ∧
          List.Forall₂ SinkCall.Alike here.sink.calls there.sink.calls) ∧
    ∀ (s : Session) (d : Direction) (data : ByteArray), s.phase = .init → s.options = options →
      (∀ {σ : Type} (sink : Sink σ) (w : σ) (now : Timestamp),
        let opened := s.handle sink.traced now (.active none) (w, [])
        Reply.Combines Eq (s.handle sink.traced now (.payload d data) (w, [])) opened
          (opened.session.handle sink.traced now (.payload d data) opened.sink)) ∧
      ∀ (now now' later : Timestamp) (outcomes : List Outcome),
        let opened := s.handle Sink.rehearsed now' (.active none) { answers := outcomes }
        Reply.Combines (fun w v => v.answers = w.answers ∧ List.Forall₂ SinkCall.Alike w.calls v.calls)
          (s.handle Sink.rehearsed now (.payload d data) { answers := outcomes }) opened
          (opened.session.handle Sink.rehearsed later (.payload d data) opened.sink) := by
  refine ⟨fun reported info hnames => ⟨?_, ?_⟩, fun s d data hphase hoptions => ⟨?_, ?_⟩⟩
  · intro σ sink w now events here there
    have hpaired : SinkCall.Paired Eq id events events := by
      have hsame := SinkCall.paired_same id events
      rwa [show (fun x : TimedEvent => (x.1, id x.2)) = id from rfl, List.map_id] at hsame
    obtain ⟨hresults, hsession, hsink⟩ := run_reported (s := create options)
      sink.traced.resembles_self hforced hnames info (.same now) hpaired rfl
    exact ⟨hresults, hsession, hsink.symm⟩
  · intro now now' events events' outcomes hsame here there
    obtain ⟨hresults, hsession, -, hcalls⟩ := run_reported (s := create options)
      (w := { answers := outcomes }) (u := { answers := outcomes }) Sink.rehearsed_resembles hforced
      hnames info (.alike now now') (SinkCall.paired_alike hsame) ⟨rfl, .nil⟩
    exact ⟨hresults, hsession, hcalls⟩
  · intro σ sink w now
    exact payload_combines sink.traced now (w, []) hphase (hoptions ▸ hforced) d data
  · intro now now' later outcomes opened
    have hcombines := payload_combines Sink.rehearsed now { answers := outcomes } hphase
      (hoptions ▸ hforced) d data
    have hopened := handle_again Sink.rehearsed_resembles (.alike now now') (w := { answers := outcomes })
      (u := { answers := outcomes }) ⟨rfl, .nil⟩ s (.active none)
    have hheard := handle_again Sink.rehearsed_resembles (.alike now later) hopened.sink
      (s.handle Sink.rehearsed now (.active none) { answers := outcomes }).session (.payload d data)
    refine hcombines.seen hopened ?_
    rw [show opened.session = _ from hopened.session.trans (View.same_session _)]
    exact hheard

end

/-- A service that was given its ends. -/
def givenService : Options :=
  { id := "given", forced := some (.tcp (.v4 ⟨10, 0, 0, 2⟩ 80) (.v4 ⟨10, 0, 0, 1⟩ 4000) true) }

/-- The same service as its connection is reported, its own end as an IPv6 address. -/
def reportedService : Connection :=
  ⟨.v6 ⟨0, 0, 0, 0, 0, 0xffff, 0x0a00, 0x0002⟩ 80 3, some (.v4 ⟨10, 0, 0, 1⟩ 4000), .tcp true⟩

/-- A report that names neither of the ends. -/
def strayReport : Connection := ⟨.v4 ⟨10, 0, 0, 9⟩ 53, none, .udp⟩

/-- The request is recorded, and the sink fails at the answer. -/
def briefService : List TimedEvent :=
  [.payload .inbound ⟨#[97]⟩, .shutdown .inbound, .payload .outbound ⟨#[98]⟩, .close].map
    fun e => (.epoch, e)

/-- The third write fails. -/
def answerFails : Rehearsed := { answers := [.ok, .ok, .ok, .ok, .failed (.bare .brokenPipe)] }

theorem forced_like_reported_service :
    let told : TimedEvent := (.epoch, .active (some strayReport))
    let reported : TimedEvent := (.epoch, .active (some reportedService))
    let here := (create givenService).run Sink.rehearsed.traced (told :: briefService) (answerFails, [])
    let there := (create givenService.unforced).run Sink.rehearsed.traced (reported :: briefService)
      (answerFails, [])
    let opened := (create givenService).handle Sink.rehearsed.traced .epoch (.active none)
      (answerFails, [])
    givenService.forced = some (.tcp (.v4 ⟨10, 0, 0, 2⟩ 80) (.v4 ⟨10, 0, 0, 1⟩ 4000) true) ∧
      ForcedChannel.Names (.tcp (.v4 ⟨10, 0, 0, 2⟩ 80) (.v4 ⟨10, 0, 0, 1⟩ 4000) true)
        reportedService ∧
      there.results = [.done, .done, .done, .failed (.write (.bare .brokenPipe)), .done] ∧
      there.results = here.results ∧ there.session = here.session.unforced ∧
      there.sink = here.sink ∧
      Reply.Combines Eq
        ((create givenService).handle Sink.rehearsed.traced .epoch (.payload .inbound ⟨#[97]⟩)
          (answerFails, []))
        opened
        (opened.session.handle Sink.rehearsed.traced .epoch (.payload .inbound ⟨#[97]⟩)
          opened.sink) := by
  have hnames : ForcedChannel.Names (.tcp (.v4 ⟨10, 0, 0, 2⟩ 80) (.v4 ⟨10, 0, 0, 1⟩ 4000) true)
      reportedService := .service (by decide) rfl
  obtain ⟨hreported, hpayload⟩ := forced_like_reported (show givenService.forced = some _ from rfl)
  obtain ⟨hresults, hsession, hsink⟩ := (hreported reportedService (some strayReport) hnames).1
    Sink.rehearsed answerFails .epoch briefService
  have hcombines := (hpayload (create givenService) .inbound ⟨#[97]⟩ rfl rfl).1 Sink.rehearsed
    answerFails .epoch
  exact ⟨rfl, hnames, by decide, hresults, hsession, hsink, hcombines⟩

end Session

end Wiretap
