import Wiretap.Proofs.Reached
import Wiretap.Proofs.Trace

/-! Datagrams on a TCP session. A datagram is meant to be a payload there, and is one in every state but
one: a session with TCP ends given up front that nothing has happened to yet looks for its channel before
it becomes active, so that the datagram that activates it is neither counted nor recorded. -/

namespace Wiretap

/-- The replies are the same but for what the log is told. -/
structure Reply.Agrees {σ : Type} (r r' : Reply σ) : Prop where
  result : r.result = r'.result
  session : r.session = r'.session
  sink : r.sink = r'.sink

theorem Reply.Agrees.symm {σ : Type} {r r' : Reply σ} (h : r.Agrees r') : r'.Agrees r :=
  ⟨h.result.symm, h.session.symm, h.sink.symm⟩

theorem Reply.Agrees.trans {σ : Type} {r r' r'' : Reply σ} (h : r.Agrees r') (h' : r'.Agrees r'') :
    r.Agrees r'' :=
  ⟨h.result.trans h'.result, h.session.trans h'.session, h.sink.trans h'.sink⟩

theorem Reply.andThen_of_done {σ : Type} {r : Reply σ} {next : Session → σ → Reply σ}
    (h : r.result = .done) : (r.andThen next).Agrees (next r.session r.sink) := by
  simp only [Reply.andThen, h]
  exact ⟨rfl, rfl, rfl⟩

theorem Reply.andThen_of_ne_done {σ : Type} {r : Reply σ} {next : Session → σ → Reply σ}
    (h : r.result ≠ .done) : r.andThen next = r := by
  unfold Reply.andThen
  split
  · exact absurd ‹_› h
  · rfl

namespace Session

/-- The session frames its payloads as TCP segments, or will once it is active. -/
def FramesTcp (s : Session) : Prop :=
  (∃ flow, s.channel = some (.tcp flow)) ∨
    (s.channel = none ∧ ∃ server client localIsServer,
      s.options.forced = some (.tcp server client localIsServer))

variable {σ : Type} (sink : Sink σ)

/-- A datagram opens the session and should have been recorded after that. -/
def OpensUnheard (now : Timestamp) (data : ByteArray) (s : Session) (w : σ) : Prop :=
  s.phase = .init ∧ (s.activate sink now none w).result = .done ∧ s.skips data = false

variable {sink} {now : Timestamp} {d : Direction} {data : ByteArray} {peer : SocketAddress}
  {options : Options} {s : Session} {w : σ}

theorem datagram_of_flow (hchannel : ∃ flow, s.channel = some (.tcp flow)) :
    s.datagram sink now d data peer w = s.payload sink now d data w := by
  obtain ⟨flow, hflow⟩ := hchannel
  rw [datagram, if_pos]
  rw [s.flow?_eq_some_iff.mpr hflow]
  rfl

theorem ensureActive_awake (hs : s.phase ≠ .init) : s.ensureActive sink now w = s.quiet w [] := by
  rw [ensureActive, if_neg fun h => hs h.1]

theorem append_traced_lt (bytes : Bytes) (w : σ × List Answer) :
    w.2.length < (sink.traced.append bytes w).2.2.length := by
  rw [Sink.append]
  rcases hwrite : sink.traced.call (.write bytes) w with ⟨o, x⟩
  have hx : x.2.length = w.2.length + 1 := by
    rw [(Sink.traced_call_iff.mp hwrite).2, List.length_cons]
  cases o with
  | ok =>
      change w.2.length < x.2.length + 1
      omega
  | failed e =>
      change w.2.length < x.2.length
      omega
  | panicked =>
      change w.2.length < x.2.length
      omega

/-- A batch makes at least one call. -/
theorem writeBatch_traced_lt (batch : List Record) {w : σ × List Answer} (hs : s.holdsSink = true) :
    w.2.length < (s.writeBatch sink.traced batch w).sink.2.length := by
  unfold writeBatch
  rw [if_pos hs]
  dsimp only
  have happend : w.2.length < (sink.traced.append
      ((if s.headerOwed then CaptureFile.header else []) ++ CaptureFile.encode batch) w).2.2.length :=
    append_traced_lt _ w
  rcases hcall : sink.traced.append _ w with ⟨_ | e | _, x⟩ <;> rw [hcall] at happend
  · exact happend
  · dsimp only
    split
    · exact happend
    · have hclose : x.2.length + 1 = (sink.traced.call .close x).2.2.length := rfl
      split
      all_goals
        rename_i hclosed
        rw [hclosed] at hclose
        exact Nat.lt_trans happend (Nat.lt_of_succ_le (Nat.le_of_eq hclose))
  · exact happend

/-- What becoming active comes to with TCP ends given up front, if all goes well. -/
theorem activate_done {server client : SocketAddress} {localIsServer : Bool}
    (hforced : options.forced = some (.tcp server client localIsServer))
    (hdone : ((create options).activate sink now none w).result = .done) :
    ∃ flow, ((create options).activate sink now none w).session =
      { create options with channel := some (.tcp flow), phase := .writing, headerOwed := false } := by
  have hcarries := activate_carries sink now none (create options) w
  cases hcarries with
  | done hcalls hresult hsession hsink =>
      obtain ⟨flow, hflow⟩ : ∃ flow, options.channel? none = some (.tcp flow) := by
        rw [Options.channel?, hforced]
        exact ⟨_, rfl⟩
      refine ⟨flow.handshake.2, ?_⟩
      rw [hsession]
      unfold planActivate
      rw [if_pos (create_phase options), create_options, hflow]
      rfl
  | failed hbreaks hresult => rw [hresult] at hdone; cases hdone
  | panicked hpanic hresult => rw [hresult] at hdone; cases hdone

theorem recordTcp_traced_lt {flow : Flow} {w : σ × List Answer} (hphase : s.phase = .writing)
    (hholds : s.holdsSink = true) :
    w.2.length < (s.recordTcp sink.traced now d data flow w).sink.2.length := by
  have hwriting : ∀ c, ({ s with channel := c } : Session).isWriting = true :=
    fun _ => s.isWriting_iff.mpr hphase
  rw [recordTcp]
  dsimp only
  rw [if_pos (hwriting _), (Reply.andThen_of_done rfl).sink]
  exact writeBatch_traced_lt _ hholds

/-- A payload on a session that is writing on a flow makes at least one call. -/
theorem payload_traced_lt {flow : Flow} {w : σ × List Answer} (hphase : s.phase = .writing)
    (hchannel : s.channel = some (.tcp flow)) (hholds : s.holdsSink = true)
    (hdata : s.skips data = false) :
    w.2.length < (s.payload sink.traced now d data w).sink.2.length := by
  have hquiet : s.ensureActive sink.traced now w = s.quiet w [] :=
    ensureActive_awake (by rw [hphase]; exact Phase.noConfusion)
  have hidle : ¬(s.phase = .init ∨ s.phase = .closed) := by simp [hphase]
  rw [payload, hquiet, (Reply.andThen_of_done rfl).sink]
  simp only [quiet, if_neg hidle, hdata, Bool.false_eq_true, if_false, hchannel]
  exact recordTcp_traced_lt hphase hholds

theorem payload_of_skips (hphase : s.phase = .writing) (hdata : s.skips data = true) :
    (s.payload sink now d data w).Agrees (s.quiet w []) := by
  have hidle : ¬(s.phase = .init ∨ s.phase = .closed) := by simp [hphase]
  rw [payload, ensureActive_awake (by rw [hphase]; exact Phase.noConfusion)]
  refine (Reply.andThen_of_done rfl).trans ?_
  simp only [quiet, if_neg hidle, hdata, if_true]
  exact ⟨rfl, rfl, rfl⟩

/-- A payload that opens a session is a payload on the open session. -/
theorem payload_of_activate (hphase : s.phase = .init) (hforced : s.options.forced.isSome = true)
    (hdone : (s.activate sink now none w).result = .done)
    (hopen : (s.activate sink now none w).session.phase ≠ .init) :
    (s.payload sink now d data w).Agrees
      ((s.activate sink now none w).session.payload sink now d data
        (s.activate sink now none w).sink) := by
  generalize hr : s.activate sink now none w = r at *
  have hfirst : s.ensureActive sink now w = r := by rw [ensureActive, if_pos ⟨hphase, hforced⟩, hr]
  rw [payload, payload, hfirst, ensureActive_awake hopen]
  refine (Reply.andThen_of_done hdone).trans (.symm ?_)
  exact Reply.andThen_of_done rfl

/-- A datagram that opens a session on a flow does what the activation does. -/
theorem datagram_of_activate {flow : Flow} (hphase : s.phase = .init) (hs : s.channel = none)
    (hforced : s.options.forced.isSome = true)
    (hdone : (s.activate sink now none w).result = .done)
    (hopen : (s.activate sink now none w).session.phase = .writing)
    (hchannel : (s.activate sink now none w).session.channel = some (.tcp flow)) :
    (s.datagram sink now d data peer w).Agrees (s.activate sink now none w) := by
  have hflow : s.flow?.isSome = false := by rw [flow?, hs]; rfl
  have hfirst : s.ensureActive sink now w = s.activate sink now none w := by
    rw [ensureActive, if_pos ⟨hphase, hforced⟩]
  generalize s.activate sink now none w = r at *
  have hidle : ¬(r.session.phase = .init ∨ r.session.phase = .closed) := by simp [hopen]
  have hnothing : ∀ notes, (r.session.quiet r.sink notes).Agrees r :=
    fun notes => ⟨hdone.symm, rfl, rfl⟩
  rw [datagram, if_neg (by simp [hflow]), hfirst]
  refine (Reply.andThen_of_done hdone).trans ?_
  rw [if_neg hidle]
  split
  · exact hnothing []
  · refine (Reply.andThen_of_done rfl).trans ?_
    simp only [quiet, hchannel]
    exact hnothing []

/-- Whoever has a failed activation does nothing after it. -/
theorem datagram_of_activate_failed (hphase : s.phase = .init) (hs : s.channel = none)
    (hforced : s.options.forced.isSome = true)
    (hfailed : (s.activate sink now none w).result ≠ .done) :
    (s.datagram sink now d data peer w).Agrees (s.payload sink now d data w) := by
  have hflow : s.flow?.isSome = false := by rw [flow?, hs]; rfl
  have hfirst : s.ensureActive sink now w = s.activate sink now none w := by
    rw [ensureActive, if_pos ⟨hphase, hforced⟩]
  rw [datagram, if_neg (by simp [hflow]), payload, hfirst, Reply.andThen_of_ne_done hfailed,
    Reply.andThen_of_ne_done hfailed]
  exact ⟨rfl, rfl, rfl⟩

/-- After the end neither does anything. -/
theorem datagram_of_closed (hphase : s.phase = .closed) :
    (s.datagram sink now d data peer w).Agrees (s.payload sink now d data w) := by
  have hinit : s.phase ≠ .init := by rw [hphase]; exact Phase.noConfusion
  unfold datagram
  split
  · exact ⟨rfl, rfl, rfl⟩
  · rw [payload, ensureActive_awake hinit]
    refine (Reply.andThen_of_done rfl).trans (.trans ?_ (Reply.andThen_of_done rfl).symm)
    simp only [quiet, hphase, or_true, if_true]
    exact ⟨rfl, rfl, rfl⟩

/-- The first event of a session with TCP ends given up front. -/
theorem created_datagram_agrees_iff {server client : SocketAddress} {localIsServer : Bool}
    {w : σ × List Answer} (hforced : options.forced = some (.tcp server client localIsServer)) :
    let s := create options
    ((s.datagram sink.traced now d data peer w).Agrees (s.payload sink.traced now d data w) ↔
        ¬s.OpensUnheard sink.traced now data w) ∧
      (s.OpensUnheard sink.traced now data w →
        (s.datagram sink.traced now d data peer w).Agrees (s.activate sink.traced now none w)) := by
  have hsome : (create options).options.forced.isSome = true := by
    rw [create_options, hforced]
    rfl
  dsimp only
  by_cases hdone : ((create options).activate sink.traced now none w).result = .done
  · obtain ⟨flow, hsession⟩ := activate_done hforced hdone
    have hdatagram : ((create options).datagram sink.traced now d data peer w).Agrees
        ((create options).activate sink.traced now none w) :=
      datagram_of_activate (create_phase options) (create_channel options) hsome hdone
        (congrArg Session.phase hsession) (congrArg Session.channel hsession)
    have hpayload : ((create options).payload sink.traced now d data w).Agrees
        (((create options).activate sink.traced now none w).session.payload sink.traced now d data
          ((create options).activate sink.traced now none w).sink) :=
      payload_of_activate (create_phase options) hsome hdone
        (by rw [hsession]; exact Phase.noConfusion)
    refine ⟨⟨?_, ?_⟩, fun _ => hdatagram⟩
    · intro hagrees hopens
      have hphase := congrArg Session.phase hsession
      have hchannel := congrArg Session.channel hsession
      have hholds := congrArg Session.holdsSink hsession
      have hdata := (congrArg (fun s => s.skips data) hsession).trans hopens.2.2
      generalize (create options).activate sink.traced now none w = r at *
      have hlonger : r.sink.2.length < r.sink.2.length :=
        calc
          _ < (r.session.payload sink.traced now d data r.sink).sink.2.length :=
            payload_traced_lt hphase hchannel hholds hdata
          _ = ((create options).payload sink.traced now d data w).sink.2.length := by
            rw [hpayload.sink]
          _ = ((create options).datagram sink.traced now d data peer w).sink.2.length := by
            rw [hagrees.sink]
          _ = r.sink.2.length := by rw [hdatagram.sink]
      exact Nat.lt_irrefl _ hlonger
    · intro hheard
      have hskips : (create options).skips data = true := by
        by_contra hdata
        exact hheard ⟨create_phase options, hdone, Bool.eq_false_iff.mpr hdata⟩
      rw [hsession] at hpayload
      have hnothing := hpayload.trans (payload_of_skips rfl hskips)
      refine hdatagram.trans (hnothing.trans ?_).symm
      exact ⟨hdone.symm, hsession.symm, rfl⟩
  · refine ⟨⟨fun _ hopens => hdone hopens.2.1, fun _ => ?_⟩, fun hopens => absurd hopens.2.1 hdone⟩
    exact datagram_of_activate_failed (create_phase options) (create_channel options) hsome hdone

/-- **On a TCP session a datagram is a payload, unless it opens the session.** The datagram that opens a
session with ends given up front does what the activation does, and no more. -/
theorem datagram_agrees_iff (hs : Reached options s) (htcp : s.FramesTcp) (sink : Sink σ)
    (now : Timestamp) (d : Direction) (data : ByteArray) (peer : SocketAddress)
    (w : σ × List Answer) :
    ((s.datagram sink.traced now d data peer w).Agrees (s.payload sink.traced now d data w) ↔
        ¬s.OpensUnheard sink.traced now data w) ∧
      (s.OpensUnheard sink.traced now data w →
        (s.datagram sink.traced now d data peer w).Agrees (s.activate sink.traced now none w)) := by
  rcases htcp with ⟨flow, hflow⟩ | ⟨hnone, server, client, localIsServer, hforced⟩
  · have hinit : s.phase ≠ .init := by
      rcases hs.createdOrAwake with rfl | hawake
      · cases hflow
      · exact hawake.1
    refine ⟨⟨fun _ hopens => hinit hopens.1, fun _ => ?_⟩, fun hopens => absurd hopens.1 hinit⟩
    rw [datagram_of_flow ⟨flow, hflow⟩]
    exact ⟨rfl, rfl, rfl⟩
  · rcases hs.createdOrAwake with rfl | hawake
    · exact created_datagram_agrees_iff hforced
    · have hclosed := hawake.2 hnone
      refine ⟨⟨fun _ hopens => hawake.1 hopens.1, fun _ => datagram_of_closed hclosed⟩,
        fun hopens => absurd hopens.1 hawake.1⟩

/-- A session of the server's end, with the ends given up front. -/
def namedOptions : Options :=
  { id := "named", forced := some (.tcp (.v4 ⟨10, 0, 0, 2⟩ 80) (.v4 ⟨10, 0, 0, 1⟩ 4000) true) }

theorem datagram_agrees_iff_named :
    let s := create namedOptions
    let sent := s.datagram Sink.recording.traced .epoch .inbound ⟨#[97]⟩ (.v4 ⟨10, 0, 0, 1⟩ 4000) ([], [])
    Reached namedOptions s ∧ s.FramesTcp ∧
      ¬sent.Agrees (s.payload Sink.recording.traced .epoch .inbound ⟨#[97]⟩ ([], [])) ∧
      sent.Agrees (s.activate Sink.recording.traced .epoch none ([], [])) := by
  have hreached : Reached namedOptions (create namedOptions) := ⟨_, Sink.recording, [], [], rfl⟩
  have htcp : (create namedOptions).FramesTcp := .inr ⟨rfl, _, _, _, rfl⟩
  obtain ⟨hiff, hlost⟩ := datagram_agrees_iff hreached htcp Sink.recording .epoch .inbound ⟨#[97]⟩
    (.v4 ⟨10, 0, 0, 1⟩ 4000) ([], [])
  have hopens : (create namedOptions).OpensUnheard Sink.recording.traced .epoch ⟨#[97]⟩ ([], []) :=
    ⟨rfl, by decide, by decide⟩
  exact ⟨hreached, htcp, fun hagrees => hiff.mp hagrees hopens, hlost hopens⟩

/-- The counter of the client does not move for the byte that opened the session as a datagram. -/
theorem datagram_opening_lost :
    let s := create namedOptions
    let sent := s.datagram Sink.recording .epoch .inbound ⟨#[97]⟩ (.v4 ⟨10, 0, 0, 1⟩ 4000) []
    let heard := s.payload Sink.recording .epoch .inbound ⟨#[97]⟩ []
    s.FramesTcp ∧ sent.session.flow?.map Flow.clientSeq = some 1 ∧
      heard.session.flow?.map Flow.clientSeq = some 2 ∧ ¬sent.Agrees heard := by
  refine ⟨.inr ⟨rfl, _, _, _, rfl⟩, by decide, by decide, ?_⟩
  intro hagrees
  exact absurd (congrArg (fun s => s.flow?.map Flow.clientSeq) hagrees.session) (by decide)

end Session

end Wiretap
