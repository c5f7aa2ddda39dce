import Wiretap.Builder
import Wiretap.Proofs.Deeds
import Wiretap.Proofs.Likeness

/-! Only the endpoints of addresses matter. With every address that a session is given or told of replaced by
the IPv4 address that stands for it, the session does the same; and whatever its sink answers, every frame
that it writes goes from one such endpoint to another. A TCP connection that reports no far end is the one
source of an endpoint that no address stands for. -/

namespace Wiretap

/-- The IPv4 address that stands for this one in a capture. -/
def SocketAddress.normalized (a : SocketAddress) : SocketAddress := a.endpoint.address

def ForcedChannel.normalized : ForcedChannel → ForcedChannel
  | .tcp server client localIsServer => .tcp server.normalized client.normalized localIsServer
  | .udp near far => .udp near.normalized far.normalized

def Connection.normalized (c : Connection) : Connection :=
  ⟨c.near.normalized, c.far.map SocketAddress.normalized, c.transport⟩

def Event.normalized : Event → Event :=
  Event.readdressed Connection.normalized SocketAddress.normalized

def Setting.normalized : Setting → Setting
  | .forced ends => .forced ends.normalized
  | x => x

def Options.normalized (o : Options) : Options :=
  { o with forced := o.forced.map ForcedChannel.normalized }

/-- The session with the addresses replaced that it was given; its channel has none. -/
def Session.normalized (s : Session) : Session := { s with options := s.options.normalized }

/-! ### Replaced addresses -/

theorem SocketAddress.endpoint_normalized (a : SocketAddress) : a.normalized.endpoint = a.endpoint :=
  a.endpoint.endpoint_address

theorem ForcedChannel.channel_normalized (f : ForcedChannel) : f.normalized.channel = f.channel := by
  cases f <;> rfl

theorem Connection.channel_normalized (c : Connection) : c.normalized.channel = c.channel := by
  obtain ⟨near, _ | far, transport⟩ := c <;> rfl

theorem Options.channel?_normalized (o : Options) (connection : Option Connection) :
    o.normalized.channel? (connection.map Connection.normalized) = o.channel? connection := by
  obtain ⟨id, shared, zeroBytes, fileHeader, forced⟩ := o
  cases forced with
  | some f => exact congrArg some f.channel_normalized
  | none =>
      cases connection with
      | none => rfl
      | some c => exact congrArg some c.channel_normalized

theorem Options.set_normalized (o : Options) (x : Setting) :
    o.normalized.set x.normalized = (o.set x).normalized := by
  cases x <;> rfl

theorem Options.built_normalized (id : String) (settings : List Setting) :
    Options.built id (settings.map Setting.normalized) = (Options.built id settings).normalized := by
  have hfold : ∀ o : Options, (settings.map Setting.normalized).foldl Options.set o.normalized =
      (settings.foldl Options.set o).normalized := by
    induction settings with
    | nil => exact fun o => rfl
    | cons x rest ih =>
        intro o
        rw [List.map_cons, List.foldl_cons, List.foldl_cons, o.set_normalized, ih]
  exact hfold { id }

/-- Every address is replaced. -/
def View.normalizing : View := ⟨Option.map ForcedChannel.normalized, false⟩

theorem View.normalizing_session (s : Session) : View.normalizing.session s = s.normalized :=
  session_of_not_turned rfl s

theorem View.normalizing_shows {σ : Type} (sink : Sink σ) (s : Session) (w : σ) (now : Timestamp)
    (e : Event) : View.normalizing.Shows sink now s w e e.normalized :=
  shows_of_not_turned rfl SocketAddress.endpoint_normalized sink s w now e fun _ connection =>
    agrees_of_not_turned rfl (s.options.channel?_normalized connection)

/-! ### Where ends come from -/

/-- The addresses that were given up front. -/
def Options.addresses (o : Options) : List SocketAddress :=
  (o.forced.map ForcedChannel.addresses).getD []

/-- The addresses that an event names. -/
def Event.addresses : Event → List SocketAddress
  | .active connection => (connection.map Connection.addresses).getD []
  | .datagram _ _ peer => [peer]
  | _ => []

/-- The event reports a TCP connection without its far end. -/
def Event.LacksFar (e : Event) : Prop :=
  ∃ near localIsServer, e = .active (some ⟨near, none, .tcp localIsServer⟩)

/-- The endpoint of an address that was given or told, with its port, or the one that stands for the far
end of a TCP connection that reports none. -/
def Supplied (o : Options) (events : List TimedEvent) (x : Endpoint) : Prop :=
  (∃ a ∈ o.addresses ++ events.flatMap (fun y => y.2.addresses), x = a.endpoint ∧ x.port = a.port) ∨
    (x = ⟨.unspecified, 0⟩ ∧ ∃ y ∈ events, y.2.LacksFar)

/-- A write is the file header or nothing, and then records with frames whose ends are known. -/
def SinkCall.Frames (known : Endpoint → Prop) (c : SinkCall) : Prop :=
  ∀ bytes, c = .write bytes → ∃ now header packets, bytes = Act.content now header packets ∧
    ∀ p ∈ packets, ∀ x ∈ p.ends, known x

section

variable {o : Options} {events : List TimedEvent}

theorem Supplied.given {a : SocketAddress} (ha : a ∈ o.addresses) : Supplied o events a.endpoint :=
  .inl ⟨a, List.mem_append_left _ ha, rfl, a.endpoint_port⟩

theorem Supplied.told {y : TimedEvent} {a : SocketAddress} (hy : y ∈ events) (ha : a ∈ y.2.addresses) :
    Supplied o events a.endpoint :=
  .inl ⟨a, List.mem_append_right _ (List.mem_flatMap.mpr ⟨y, hy, ha⟩), rfl, a.endpoint_port⟩

theorem ForcedChannel.ends_channel (f : ForcedChannel) :
    f.channel.ends = f.addresses.map SocketAddress.endpoint := by
  cases f <;> rfl

/-- The ends of a reported connection are those of its addresses, if it reports both. -/
theorem Connection.ends_channel {c : Connection} {x : Endpoint} (hx : x ∈ c.channel.ends) :
    (∃ a ∈ c.addresses, x = a.endpoint) ∨
      (x = ⟨.unspecified, 0⟩ ∧ ∃ near localIsServer, c = ⟨near, none, .tcp localIsServer⟩) := by
  obtain ⟨near, far, transport⟩ := c
  have hnear : near ∈ (Connection.mk near far transport).addresses := List.mem_cons_self
  cases transport with
  | udp =>
      rcases List.mem_cons.mp hx with rfl | hx
      · exact .inl ⟨near, hnear, rfl⟩
      · obtain ⟨a, rfl, rfl⟩ := Option.map_eq_some_iff.mp (Option.mem_toList.mp hx)
        exact .inl ⟨a, List.mem_cons_of_mem _ List.mem_cons_self, rfl⟩
  | tcp localIsServer =>
      have hends : x = near.endpoint ∨ x = (far.map SocketAddress.endpoint).getD ⟨.unspecified, 0⟩ := by
        cases localIsServer <;>
          simp only [channel, Bool.false_eq_true, if_true, if_false, Channel.ends, Flow.ends,
            List.mem_cons, List.not_mem_nil, or_false] at hx
        · exact hx
        · exact hx.symm
      rcases hends with rfl | rfl
      · exact .inl ⟨near, hnear, rfl⟩
      · cases far with
        | none => exact .inr ⟨rfl, near, localIsServer, rfl⟩
        | some far => exact .inl ⟨far, List.mem_cons_of_mem _ List.mem_cons_self, rfl⟩

/-- A session that is told of an event opens on ends that were supplied. -/
theorem Supplied.opens {y : TimedEvent} {channel : Channel} (hy : y ∈ events)
    (hchannel : o.channel? y.2.report? = some channel) : ∀ x ∈ channel.ends, Supplied o events x := by
  intro x hx
  unfold Options.channel? at hchannel
  cases hforced : o.forced with
  | some f =>
      rw [hforced] at hchannel
      cases hchannel
      rw [f.ends_channel] at hx
      obtain ⟨a, ha, rfl⟩ := List.mem_map.mp hx
      refine .given ?_
      rw [Options.addresses, hforced]
      exact ha
  | none =>
      rw [hforced] at hchannel
      obtain ⟨c, hreport, rfl⟩ := Option.map_eq_some_iff.mp hchannel
      obtain ⟨now, e⟩ := y
      cases e with
      | active connection =>
          cases hreport
          rcases Connection.ends_channel hx with ⟨a, ha, rfl⟩ | ⟨rfl, near, localIsServer, rfl⟩
          · exact .told hy ha
          · exact .inr ⟨rfl, _, hy, near, localIsServer, rfl⟩
      | _ => cases hreport

theorem Supplied.peers {y : TimedEvent} (hy : y ∈ events) :
    ∀ x ∈ y.2.peers, Supplied o events x := by
  intro x hx
  obtain ⟨now, e⟩ := y
  cases e with
  | datagram d data peer =>
      rw [List.mem_singleton.mp hx]
      exact .told hy List.mem_cons_self
  | _ => exact absurd hx List.not_mem_nil

end

/-! ### Frames -/

/-- The ends of the session are known, and so are those of all the frames that were written. -/
structure Session.Framed {σ : Type} (known : Endpoint → Prop) (options : Options)
    (y : Session × σ × List Answer) : Prop where
  given : y.1.options = options
  ends : ∀ x ∈ y.1.ends, known x
  written : ∀ a ∈ y.2.2, a.1.Frames known

section

variable {σ : Type} {sink : Sink σ} {known : Endpoint → Prop} {options : Options} {now : Timestamp}
  {e : Event} {x y : Session × σ × List Answer}

/-- A deed frames packets with known ends, if what is told adds no others. -/
theorem SessionDeed.framed (h : SessionDeed sink.traced now e x y)
    (hopens : ∀ channel, options.channel? e.report? = some channel → ∀ z ∈ channel.ends, known z)
    (hpeers : ∀ z ∈ e.peers, known z) (hx : Session.Framed known options x) :
    Session.Framed known options y := by
  cases h with
  | opens channel hphase hchannel =>
      refine ⟨hx.given, ?_, hx.written⟩
      intro z hz
      rw [Session.ends_eq rfl, channel.ends_opened] at hz
      exact hopens channel (hx.given ▸ hchannel) z hz
  | counts hphase hchannel hends =>
      refine ⟨hx.given, ?_, hx.written⟩
      intro z hz
      rw [Session.ends_eq rfl, Channel.ends, hends.ends] at hz
      refine hx.ends z ?_
      rw [Session.ends_eq hchannel]
      exact hz
  | @appends s w header packets hholds hends =>
      refine ⟨hx.given, hx.ends, ?_⟩
      obtain ⟨o, more, hlog, hflushes⟩ := sink.append_traced (Act.content now header packets) w
      rw [hlog, List.forall_mem_append, List.forall_mem_cons]
      refine ⟨fun a ha bytes hbytes => ?_, fun bytes hbytes => ?_, hx.written⟩
      · rw [hflushes a ha] at hbytes
        cases hbytes
      · cases hbytes
        refine ⟨now, header, packets, rfl, fun p hp z hz => ?_⟩
        rcases List.mem_append.mp (hends p hp hz) with hz | hz
        · exact hx.ends z hz
        · exact hpeers z hz
  | closes hholds =>
      refine ⟨hx.given, hx.ends, List.forall_mem_cons.mpr ⟨fun bytes hbytes => ?_, hx.written⟩⟩
      cases hbytes
  | marks => exact ⟨hx.given, hx.ends, hx.written⟩
  | settles => exact ⟨hx.given, hx.ends, hx.written⟩
  | releases => exact ⟨hx.given, hx.ends, hx.written⟩
  | ends => exact ⟨hx.given, hx.ends, hx.written⟩
  | pauses => exact ⟨hx.given, hx.ends, hx.written⟩
  | resumes => exact ⟨hx.given, hx.ends, hx.written⟩

namespace Session

variable {s : Session} {w : σ × List Answer}

theorem handle_framed (hopens : ∀ channel, options.channel? e.report? = some channel →
      ∀ z ∈ channel.ends, known z) (hpeers : ∀ z ∈ e.peers, known z)
    (h : Framed known options (s, w)) :
    Framed known options
      ((s.handle sink.traced now e w).session, (s.handle sink.traced now e w).sink) :=
  (handle_deeds now e s w).keeps (fun _ _ hdeed hx => hdeed.framed hopens hpeers hx) h

/-- A run frames packets with the ends that were given and told. -/
theorem run_framed {events : List TimedEvent} (rest : List TimedEvent)
    (hrest : ∀ y ∈ rest, y ∈ events) (h : Framed (Supplied options events) options (s, w)) :
    Framed (Supplied options events) options
      ((s.run sink.traced rest w).session, (s.run sink.traced rest w).sink) := by
  induction rest generalizing s w with
  | nil => exact h
  | cons y rest ih =>
      have hy : y ∈ events := hrest y List.mem_cons_self
      exact ih (fun z hz => hrest z (List.mem_cons_of_mem _ hz))
        (handle_framed (fun channel hchannel => Supplied.opens hy hchannel) (Supplied.peers hy) h)

end Session

end

namespace Session

/-- **Only the endpoint of an address matters.** Replacing every address that a session is built with or
told of by the one that stands for it changes neither the calls of the sink nor the results nor the state,
whatever the sink answers; with clocks of their own the calls are the same but for the times of the
records. And every frame that is written goes between endpoints of addresses that were supplied. -/
theorem capture_of_normalized (id : String) (settings : List Setting) (events : List TimedEvent) :
    let options := Options.built id settings
    let plain := Options.built id (settings.map Setting.normalized)
    (∀ {σ : Type} (sink : Sink σ) (w : σ),
      let here := (create options).run sink.traced events (w, [])
      let there := (create plain).run sink.traced (events.map fun x => (x.1, x.2.normalized)) (w, [])
      there.results = here.results ∧ there.session = here.session.normalized ∧
        there.sink = here.sink ∧ ∀ a ∈ here.sink.2, a.1.Frames (Supplied options events)) ∧
    ∀ (events' : List TimedEvent) (outcomes : List Outcome),
      events'.map Prod.snd = events.map (fun x => x.2.normalized) →
      let here := (create options).run Sink.rehearsed events { answers := outcomes }
      let there := (create plain).run Sink.rehearsed events' { answers := outcomes }
      there.results = here.results ∧ there.session = here.session.normalized ∧
        List.Forall₂ SinkCall.Alike here.sink.calls there.sink.calls := by
  intro options plain
  have hplain : create plain = View.normalizing.session (create options) := by
    rw [View.normalizing_session]
    exact congrArg create (Options.built_normalized id settings)
  refine ⟨?_, ?_⟩
  · intro σ sink w here there
    obtain ⟨hresults, hsession, hsink⟩ := run_seen (P := fun _ => True) sink.traced.resembles_self
      (fun s w now e _ => View.normalizing_shows sink.traced s w now e) (fun _ _ _ _ h => h)
      (SinkCall.paired_same Event.normalized events) (Eq.refl (w, [])) (s := create options) trivial
    rw [← hplain, View.normalizing_session] at hsession
    rw [← hplain] at hresults hsink
    have hcreated : Framed (Supplied options events) options (create options, w, []) :=
      ⟨rfl, List.forall_mem_nil _, List.forall_mem_nil _⟩
    exact ⟨hresults, hsession, hsink.symm, (run_framed events (fun _ hy => hy) hcreated).written⟩
  · intro events' outcomes hsame here there
    obtain ⟨hresults, hsession, -, hcalls⟩ := run_seen (P := fun _ => True) Sink.rehearsed_resembles
      (fun s w now e _ => View.normalizing_shows Sink.rehearsed s w now e) (fun _ _ _ _ h => h)
      (SinkCall.paired_alike hsame) (w := { answers := outcomes }) (u := { answers := outcomes })
      ⟨rfl, .nil⟩ (s := create options) trivial
    rw [← hplain, View.normalizing_session] at hsession
    rw [← hplain] at hresults hcalls
    exact ⟨hresults, hsession, hcalls⟩

/-- A resolver at a mapped address whose far end no capture can show. -/
def resolverSettings : List Setting :=
  [.forced (.tcp (.v4 ⟨10, 0, 0, 2⟩ 80) (.v4 ⟨10, 0, 0, 1⟩ 4000) true), .fileHeader false,
    .forced (.udp (.v6 ⟨0, 0, 0, 0, 0, 0xffff, 0x0a00, 0x0001⟩ 53 7)
      (.v6 ⟨0x2001, 0xdb8, 0, 0, 0, 0, 0, 1⟩ 4000 0))]

/-- An answer to the far end and a question of another peer. -/
def resolverTalk (now : Timestamp) : List TimedEvent :=
  [.payload .outbound ⟨#[97]⟩,
    .datagram .inbound ⟨#[98]⟩ (.v6 ⟨0, 0, 0, 0, 0, 0xffff, 0x0a00, 0x0002⟩ 4001 0), .close].map
    fun e => (now, e)

theorem capture_of_normalized_resolver :
    let options := Options.built "resolver" resolverSettings
    let plain := Options.built "resolver" (resolverSettings.map Setting.normalized)
    let here := (create options).run Sink.rehearsed.traced (resolverTalk .epoch) ({}, [])
    let there := (create plain).run Sink.rehearsed.traced
      ((resolverTalk .epoch).map fun x => (x.1, x.2.normalized)) ({}, [])
    let first := Act.content .epoch false [.udp ⟨⟨10, 0, 0, 1⟩, 53⟩ ⟨⟨0, 0, 0, 0⟩, 4000⟩ [97]]
    let second := Act.content .epoch false [.udp ⟨⟨10, 0, 0, 2⟩, 4001⟩ ⟨⟨10, 0, 0, 1⟩, 53⟩ [98]]
    options ≠ plain ∧ there.results = [.done, .done, .done] ∧
      there.session = here.session.normalized ∧ there.sink = here.sink ∧
      here.sink.1.calls = [.close, .flush, .write second, .flush, .write first] ∧
      (∃ now header packets, second = Act.content now header packets ∧
        ∀ p ∈ packets, ∀ x ∈ p.ends, Supplied options (resolverTalk .epoch) x) ∧
      List.Forall₂ SinkCall.Alike
        ((create options).run Sink.rehearsed (resolverTalk .epoch) {}).sink.calls
        ((create plain).run Sink.rehearsed
          ((resolverTalk ⟨1, 0, by decide, by decide⟩).map fun x => (x.1, x.2.normalized))
          {}).sink.calls := by
  obtain ⟨hsame, hclocks⟩ := capture_of_normalized "resolver" resolverSettings (resolverTalk .epoch)
  obtain ⟨hresults, hsession, hsink, hframes⟩ := hsame Sink.rehearsed {}
  obtain ⟨-, -, hcalls⟩ := hclocks
    ((resolverTalk ⟨1, 0, by decide, by decide⟩).map fun x => (x.1, x.2.normalized)) [] rfl
  have hwritten : (SinkCall.write (Act.content .epoch false
      [.udp ⟨⟨10, 0, 0, 2⟩, 4001⟩ ⟨⟨10, 0, 0, 1⟩, 53⟩ [98]]), Outcome.ok) ∈
        ((create (Options.built "resolver" resolverSettings)).run Sink.rehearsed.traced
          (resolverTalk .epoch) ({}, [])).sink.2 := by decide
  exact ⟨by decide, hresults.trans (by decide), hsession, hsink, by decide,
    hframes _ hwritten _ rfl, hcalls⟩

end Session

end Wiretap
