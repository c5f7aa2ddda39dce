import Wiretap.Proofs.Likeness
import Wiretap.Proofs.Reached
import Wiretap.Proofs.Upkeep

/-! The capture does not depend on the end that it is taken from. Everything a session is given or told is
turned: near and far are exchanged, the role of the near end is the other one, and payloads travel the
other way. The session then makes the same calls with the same results, and is in the same state but for
which end of its channel is near. A datagram that names its peer has no other side, so this leaves out
UDP sessions that are told of such. -/

namespace Wiretap

/-- The same ends, given up front at the other one. -/
def ForcedChannel.turned : ForcedChannel → ForcedChannel
  | tcp server client localIsServer => .tcp server client !localIsServer
  | udp near far => .udp far near

def Transport.turned : Transport → Transport
  | tcp localIsServer => .tcp !localIsServer
  | udp => .udp

/-- The same connection as its other end reports it. The far end of a TCP connection that has none is
`0.0.0.0:0`; a UDP socket without a far end has no other side. -/
def Connection.turned (c : Connection) : Connection :=
  match c.far, c.transport with
  | some far, _ => ⟨far, some c.near, c.transport.turned⟩
  | none, .tcp _ => ⟨.v4 .unspecified 0, some c.near, c.transport.turned⟩
  | none, .udp => c

def Options.turned (o : Options) : Options := { o with forced := o.forced.map ForcedChannel.turned }

def Channel.turned : Channel → Channel
  | tcp flow => .tcp { flow with localIsServer := !flow.localIsServer }
  | udp near (some far) => .udp far (some near)
  | udp near none => .udp near none

/-- The same session but for which end is near. -/
def Session.turned (s : Session) : Session :=
  { s with options := s.options.turned, channel := s.channel.map Channel.turned }

/-- What happens, as it is at the other end. -/
def Event.turned : Event → Event
  | active connection => .active (connection.map Connection.turned)
  | payload d data => .payload d.opposite data
  | datagram d data peer => .datagram d.opposite data peer
  | shutdown d => .shutdown d.opposite
  | error => .error
  | pause => .pause
  | resume => .resume
  | close => .close

/-- A payload with a peer of its own. -/
def Event.isDatagram : Event → Bool
  | datagram _ _ _ => true
  | _ => false

/-! ### The view from the other end -/

/-- Everything is seen from the other end. -/
def View.otherEnd : View := ⟨Option.map ForcedChannel.turned, true⟩

namespace View

theorem otherEnd_channel (c : Channel) : otherEnd.channel c = c.turned := by
  rcases c with ⟨client, server, localIsServer, m, n⟩ | ⟨near, _ | far⟩
  · cases localIsServer <;> rfl
  · rfl
  · rfl

theorem otherEnd_session (s : Session) : otherEnd.session s = s.turned := by
  rw [session, funext otherEnd_channel]
  rfl

theorem otherEnd_forced (f : ForcedChannel) : f.turned.channel = otherEnd.channel f.channel := by
  cases f with
  | tcp server client localIsServer => cases localIsServer <;> rfl
  | udp near far => rfl

theorem otherEnd_connection (c : Connection) : c.turned.channel = otherEnd.channel c.channel := by
  obtain ⟨near, far, transport⟩ := c
  rcases transport with localIsServer | _
  · cases far <;> cases localIsServer <;> rfl
  · cases far <;> rfl

theorem otherEnd_agrees (o : Options) (connection : Option Connection) :
    otherEnd.Agrees o connection (connection.map Connection.turned) := by
  have hforced : (otherEnd.options o).forced = o.forced.map ForcedChannel.turned := rfl
  unfold Agrees Options.channel?
  rw [hforced]
  cases o.forced with
  | some f => exact congrArg some (otherEnd_forced f)
  | none =>
      cases connection with
      | some c => exact congrArg some (otherEnd_connection c)
      | none => rfl

end View

section

variable {σ τ : Type} {sink : Sink σ} {image : Sink τ} {C : SinkCall → SinkCall → Prop}
  {R : σ → τ → Prop} {options : Options} {s : Session} {w : σ} {u : τ} {now : Timestamp}

/-- What is told at the other end is what is told here, turned. -/
theorem Event.turned_shows (e : Event)
    (hudp : e.isDatagram = true → (s.ensureActive sink now w).session.protocol? ≠ some .udp) :
    View.otherEnd.Shows sink now s w e e.turned := by
  cases e with
  | active connection => exact .active fun _ => View.otherEnd_agrees _ _
  | payload d data => exact .payload d data fun _ => View.otherEnd_agrees _ none
  | datagram d data peer =>
      exact .datagram d data (fun _ => View.otherEnd_agrees _ none) rfl fun _ => hudp rfl
  | shutdown d => exact .shutdown d
  | error => exact .error
  | pause => exact .pause
  | resume => exact .resume
  | close => exact .close

namespace Session

/-! ### A session on UDP stays there -/

theorem writeBatch_channel (sink : Sink σ) (batch : List Record) (s : Session) (w : σ) :
    (s.writeBatch sink batch w).session.channel = s.channel := by
  unfold writeBatch
  split
  · dsimp only
    split
    · rfl
    · rfl
    · split
      · rfl
      · split <;> rfl
  · rfl

theorem recordUdp_channel (sink : Sink σ) (now : Timestamp) (d : Direction) (data : ByteArray)
    (near : Endpoint) (far : Option Endpoint) (s : Session) (w : σ) :
    (s.recordUdp sink now d data near far w).session.channel = s.channel := by
  unfold recordUdp
  split
  · split
    · rfl
    · split
      · rfl
      · exact andThen_session (P := fun t => t.channel = s.channel) rfl fun t w ht =>
          (writeBatch_channel sink _ t w).trans ht
  · rfl

theorem datagram_keeps_udp (d : Direction) (data : ByteArray) (peer : SocketAddress)
    (h : (s.ensureActive sink now w).session.protocol? = some .udp) :
    (s.datagram sink now d data peer w).session.protocol? = some .udp := by
  unfold datagram
  split
  · refine andThen_session (P := fun t => t.protocol? = some .udp) h fun s w hs => ?_
    split
    · exact hs
    · split
      · exact hs
      · split
        · rename_i flow hflow
          rw [protocol?, hflow] at hs
          cases hs
        · rw [protocol?, recordUdp_channel]
          exact hs
        · exact hs
  · refine andThen_session (P := fun t => t.protocol? = some .udp) h fun s w hs => ?_
    split
    · exact hs
    · split
      · exact hs
      · refine andThen_session (P := fun t => t.protocol? = some .udp) hs fun s w hs => ?_
        split
        · rw [protocol?, recordUdp_channel]
          exact hs
        · exact hs

/-! ### Runs -/

/-- **A run at the other end is the run here, turned.** -/
theorem run_turned (hsinks : sink.Resembles image C R) {events events' : List TimedEvent}
    (hevents : List.Forall₂ (fun x y => SinkCall.Covers C x.1 y.1 ∧ y.2 = x.2.turned) events events')
    (hw : R w u) (hs : s.InStep options)
    (hudp : (s.run sink events w).session.protocol? = some .udp →
      ∀ x ∈ events, x.2.isDatagram = false) :
    let here := s.run sink events w
    let there := s.turned.run image events' u
    there.results = here.results ∧ there.session = here.session.turned ∧ R here.sink there.sink := by
  induction hevents generalizing s w u with
  | nil => exact ⟨rfl, rfl, hw⟩
  | @cons x y events events' hxy _ ih =>
      obtain ⟨now, e⟩ := x
      obtain ⟨now', _⟩ := y
      obtain ⟨htimes, rfl⟩ := hxy
      have hturn : SessionTurn sink (s, w) _ := handle_turn now e s w
      have hafter := (hturn.inStep hs).1
      have hleads : (s.handle sink now e w).session.Leads (s.run sink ((now, e) :: events) w).session :=
        (run_inStep events hafter).2
      have hshows : View.otherEnd.Shows sink now s w e e.turned := by
        refine e.turned_shows fun hdatagram hopens => ?_
        -- a session that was on UDP when it was told of a datagram is on UDP in the end
        have hlater : (s.handle sink now e w).session.protocol? = some .udp := by
          cases e with
          | datagram d data peer => exact datagram_keeps_udp d data peer hopens
          | _ => cases hdatagram
        have hnone := hudp (hleads.protocol? hlater) (now, e) List.mem_cons_self
        exact absurd (hdatagram.symm.trans hnone) (by decide)
      obtain ⟨hresult, hsession, hsink⟩ := handle_seen hsinks htimes hw hshows
      rw [View.otherEnd_session, View.otherEnd_session] at hsession
      rw [View.otherEnd_session] at hresult hsink
      obtain ⟨hresults, hsession', hsink'⟩ := ih hsink hafter fun h x hx =>
        hudp h x (List.mem_cons_of_mem _ hx)
      simp only [run]
      rw [hsession]
      exact ⟨by rw [hresult, hresults], hsession', hsink'⟩

/-- **The capture does not depend on the end it is taken from.** What a session makes of its sink, the
results of its operations and its state are those of the session at the other end, whatever the sink
answers; with clocks of their own they make the same calls but for the times of the records, as long as
these calls have the same outcomes. -/
theorem capture_of_either_end (options : Options) (events : List TimedEvent) :
    (∀ {σ : Type} (sink : Sink σ) (w : σ),
      let here := (create options).run sink.traced events (w, [])
      let there := (create options.turned).run sink.traced
        (events.map fun x => (x.1, x.2.turned)) (w, [])
      (here.session.protocol? = some .udp → ∀ x ∈ events, x.2.isDatagram = false) →
      there.results = here.results ∧ there.session = here.session.turned ∧ there.sink = here.sink) ∧
    ∀ (events' : List TimedEvent) (outcomes : List Outcome),
      events'.map Prod.snd = events.map (fun x => x.2.turned) →
      let here := (create options).run Sink.rehearsed events { answers := outcomes }
      let there := (create options.turned).run Sink.rehearsed events' { answers := outcomes }
      (here.session.protocol? = some .udp → ∀ x ∈ events, x.2.isDatagram = false) →
      there.results = here.results ∧ there.session = here.session.turned ∧
        List.Forall₂ SinkCall.Alike here.sink.calls there.sink.calls := by
  refine ⟨?_, ?_⟩
  · intro σ sink w here there hudp
    have hevents : List.Forall₂ (fun x y => SinkCall.Covers Eq x.1 y.1 ∧ y.2 = x.2.turned) events
        (events.map fun x => (x.1, x.2.turned)) := by
      rw [List.forall₂_map_right_iff, List.forall₂_same]
      exact fun x _ => ⟨.same x.1, rfl⟩
    obtain ⟨hresults, hsession, hsink⟩ :=
      run_turned sink.traced.resembles_self hevents rfl (create_inStep options) hudp
    exact ⟨hresults, hsession, hsink.symm⟩
  · intro events' outcomes hsame here there hudp
    have hevents : List.Forall₂ (fun x y => SinkCall.Covers SinkCall.Alike x.1 y.1 ∧ y.2 = x.2.turned)
        events events' := by
      have heq : List.Forall₂ Eq (events.map fun x => x.2.turned) (events'.map Prod.snd) := by
        rw [List.forall₂_eq_eq_eq, hsame]
      rw [List.forall₂_map_left_iff, List.forall₂_map_right_iff] at heq
      exact heq.imp fun x y hxy => ⟨.alike x.1 y.1, hxy.symm⟩
    obtain ⟨hresults, hsession, -, hcalls⟩ :=
      run_turned Sink.rehearsed_resembles hevents ⟨rfl, .nil⟩ (create_inStep options) hudp
    exact ⟨hresults, hsession, hcalls⟩

/-- A client reports its connection to a server, which stops first; a peer is named in between. -/
def clientTalk (now : Timestamp) : List TimedEvent :=
  [.active (some ⟨.v4 ⟨10, 0, 0, 1⟩ 4000, some (.v4 ⟨10, 0, 0, 2⟩ 80), .tcp false⟩),
    .payload .outbound ⟨#[97, 98]⟩, .shutdown .inbound,
    .datagram .inbound ⟨#[99]⟩ (.v4 ⟨10, 0, 0, 2⟩ 80), .close].map fun e => (now, e)

/-- What the server reports of it. -/
def serverTalk (now : Timestamp) : List TimedEvent :=
  [.active (some ⟨.v4 ⟨10, 0, 0, 2⟩ 80, some (.v4 ⟨10, 0, 0, 1⟩ 4000), .tcp true⟩),
    .payload .inbound ⟨#[97, 98]⟩, .shutdown .outbound,
    .datagram .outbound ⟨#[99]⟩ (.v4 ⟨10, 0, 0, 2⟩ 80), .close].map fun e => (now, e)

/-- The third write fails. -/
def thirdWriteFails : List Outcome := [.ok, .ok, .ok, .ok, .failed (.bare .brokenPipe)]

theorem capture_of_either_end_reported :
    let options : Options := { id := "reported" }
    let here := (create options).run Sink.rehearsed (clientTalk .epoch) { answers := thirdWriteFails }
    let there := (create options).run Sink.rehearsed (serverTalk ⟨1, 0, by decide, by decide⟩)
      { answers := thirdWriteFails }
    here.session.protocol? = some .tcp ∧
      there.results = [.done, .done, .done, .failed (.write (.bare .brokenPipe)), .done] ∧
      there.session = here.session.turned ∧
      List.Forall₂ SinkCall.Alike here.sink.calls there.sink.calls ∧
      ((create options).run Sink.rehearsed.traced (serverTalk .epoch)
        ({ answers := thirdWriteFails }, [])).sink =
      ((create options).run Sink.rehearsed.traced (clientTalk .epoch)
        ({ answers := thirdWriteFails }, [])).sink := by
  obtain ⟨hsame, hclocks⟩ := capture_of_either_end { id := "reported" } (clientTalk .epoch)
  have htcp : ((create { id := "reported" }).run Sink.rehearsed (clientTalk .epoch)
      { answers := thirdWriteFails }).session.protocol? = some .tcp := by decide
  have htcp' : ((create { id := "reported" }).run Sink.rehearsed.traced (clientTalk .epoch)
      ({ answers := thirdWriteFails }, [])).session.protocol? = some .tcp := by decide
  obtain ⟨hresults, hsession, hcalls⟩ := hclocks (serverTalk ⟨1, 0, by decide, by decide⟩)
    thirdWriteFails rfl fun hudp => absurd (hudp.symm.trans htcp) (by decide)
  obtain ⟨-, -, hsink⟩ := hsame Sink.rehearsed { answers := thirdWriteFails } fun hudp =>
    absurd (hudp.symm.trans htcp') (by decide)
  exact ⟨htcp, hresults.trans (by decide), hsession, hcalls, hsink⟩

end Session

end

end Wiretap
