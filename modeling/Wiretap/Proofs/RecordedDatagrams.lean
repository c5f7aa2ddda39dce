import Wiretap.Proofs.Datagrams
import Wiretap.Proofs.Decoding
import Wiretap.Proofs.Grammar
import Wiretap.Proofs.Pausing
import Wiretap.Proofs.Reading
import Wiretap.Proofs.Sharing

/-! Datagrams that are recorded. A session that does not frame TCP records a payload or a datagram if it is
writing, or begins to with this very call, if there are bytes or those of no bytes are wanted, if one packet
can hold them and if the far end is known. Its capture is these packets in the order of the calls, each
appended by one write, and nothing else. Any other datagram leaves the sink alone, and the address of a peer
does not outlive its datagram. -/

namespace Wiretap

namespace Session

/-! ### What is recorded -/

/-- The channel of the session, or the one that its next payload opens. -/
def nextChannel? (s : Session) : Option Channel :=
  if s.phase = .init then s.options.channel? none else s.channel

/-- The packet of a datagram, if one can be made of it. -/
def framed? (s : Session) (d : Direction) (data : ByteArray) (near far : Endpoint) : Option Packet :=
  if (data.size ≠ 0 ∨ s.options.zeroBytes = true) ∧ data.size ≤ maxUdpPayload then
    some (.udp (datagramEnds d near far).1 (datagramEnds d near far).2 data.data.toList)
  else none

/-- The ends between which a datagram of this moment is recorded, the far end if it is known. -/
def recordingEnds? (s : Session) : Option (Endpoint × Option Endpoint) :=
  if s.phase = .writing ∨ s.phase = .init then
    match s.nextChannel? with
    | some (.udp near far) => some (near, far)
    | _ => none
  else none

/-- The packet that an event adds to the capture. -/
def recorded? (s : Session) : Event → Option Packet
  | .payload d data => s.recordingEnds?.bind fun ends => ends.2.bind (s.framed? d data ends.1)
  | .datagram d data peer => s.recordingEnds?.bind fun ends => s.framed? d data ends.1 peer.endpoint
  | _ => none

/-- The packets that some events add to the capture, each with the time of its event. -/
def recordings : List TimedEvent → Session → List (Timestamp × Packet)
  | [], _ => []
  | (now, e) :: rest, s =>
    (s.recorded? e).toList.map (fun p => (now, p)) ++
      recordings rest (s.handle Sink.recording now e []).session

theorem recordings_append (events later : List TimedEvent) (s : Session) (log : List SinkCall) :
    s.recordings (events ++ later) =
      s.recordings events ++ (s.run Sink.recording events log).session.recordings later := by
  induction events generalizing s log with
  | nil => rfl
  | cons x rest ih =>
      obtain ⟨now, e⟩ := x
      have hsession : (s.handle Sink.recording now e log).session =
          (s.handle Sink.recording now e []).session := by
        rw [(handle_recording now e s log).2.1, (handle_recording now e s []).2.1]
      rw [List.cons_append, recordings, recordings, List.append_assoc, run]
      dsimp only
      rw [hsession, ih]

/-- The session frames no TCP and its next payload will not make it. -/
def Connectionless (s : Session) : Prop := ∀ flow, s.nextChannel? ≠ some (.tcp flow)

/-- The session once it had the chance to become active. -/
def woken (s : Session) : Session :=
  if s.phase = .init then
    match s.nextChannel? with
    | some channel => { s with channel := some channel, phase := .writing }
    | none => s
  else s

variable {options : Options} {s : Session}

/-! ### Becoming active -/

theorem woken_keeps (s : Session) :
    s.woken.options = s.options ∧ s.woken.holdsSink = s.holdsSink ∧ s.woken.headerOwed = s.headerOwed := by
  unfold woken
  split
  · split <;> exact ⟨rfl, rfl, rfl⟩
  · exact ⟨rfl, rfl, rfl⟩

/-- What becoming active is to a session of datagrams: it asks nothing of the sink. -/
theorem Connectionless.wakes (h : s.Connectionless) : s.planEnsureActive = s.woken.planNothing := by
  unfold planEnsureActive woken
  by_cases hphase : s.phase = .init
  · have hnext : s.nextChannel? = s.options.channel? none := if_pos hphase
    rw [if_pos hphase]
    cases hforced : s.options.forced with
    | none =>
        rw [hnext, Options.channel?, hforced, if_neg (by simp)]
        rfl
    | some f =>
        rw [Options.channel?_forced hforced] at hnext
        rw [if_pos ⟨hphase, rfl⟩, planActivate, if_pos hphase, Options.channel?_forced hforced, hnext]
        cases f with
        | tcp server client localIsServer => exact absurd hnext (h _)
        | udp near far => rfl
  · rw [if_neg fun hinit => hphase hinit.1, if_neg hphase]

/-- What is recorded by a session that is active, if it is one of datagrams. -/
theorem Connectionless.woken_ends (h : s.Connectionless) :
    s.recordingEnds? =
      if s.woken.phase = .writing then
        match s.woken.channel with
        | some (.udp near far) => some (near, far)
        | _ => none
      else none := by
  unfold recordingEnds? woken
  by_cases hinit : s.phase = .init
  · rw [if_pos (.inr hinit), if_pos hinit]
    rcases hnext : s.nextChannel? with _ | flow | ⟨near, far⟩
    · rw [hinit]
      rfl
    · exact absurd hnext (h flow)
    · rfl
  · rw [if_neg hinit, nextChannel?, if_neg hinit]
    simp only [hinit, or_false]

/-! ### What a datagram does -/

/-- What a session does about a packet that is recorded, or about none. -/
def planRecorded (packet : Option Packet) (s : Session) : Plan :=
  packet.elim s.planNothing fun p => s.planBatch [p]

theorem framed?_skipped {data : ByteArray} (h : s.skips data = true) (d : Direction)
    (near far : Endpoint) : s.framed? d data near far = none := by
  rw [skips, Bool.and_eq_true_iff, isEmpty_iff_size, Bool.not_eq_true'] at h
  exact if_neg fun hframed => hframed.1.elim (· h.1) fun hzero => Bool.noConfusion (h.2.symm.trans hzero)

theorem planUdp_recorded (d : Direction) (data : ByteArray) (near : Endpoint) (far : Option Endpoint)
    (s : Session) :
    (if (s.phase = .init ∨ s.phase = .closed) ∨ s.skips data then s.planNothing
        else s.planUdp d data near far) =
      s.planRecorded (if s.phase = .writing then far.bind (s.framed? d data near) else none) := by
  by_cases hskips : s.skips data = true
  · have hnone : far.bind (s.framed? d data near) = none := by
      cases far with
      | none => rfl
      | some far => exact framed?_skipped hskips d near far
    rw [if_pos (.inr hskips), hnone, ite_self]
    rfl
  by_cases hphase : s.phase = .writing
  · have hwanted : data.size ≠ 0 ∨ s.options.zeroBytes = true := by
      rw [skips, Bool.and_eq_true_iff, isEmpty_iff_size, not_and, Bool.not_eq_true',
        Bool.not_eq_false] at hskips
      exact Decidable.not_or_of_imp hskips
    rw [if_neg (by simp [hphase, hskips]), if_pos hphase]
    unfold planUdp framed?
    by_cases hsize : data.size ≤ maxUdpPayload
    · rw [if_pos ⟨s.isWriting_iff.mpr hphase, hsize⟩]
      simp only [if_pos (And.intro hwanted hsize)]
      cases far <;> rfl
    · rw [if_neg fun h => hsize h.2]
      simp only [if_neg fun h : _ ∧ _ => hsize h.2]
      cases far <;> rfl
  · rw [if_neg hphase]
    split
    · rfl
    · unfold planUdp
      rw [if_neg fun h => hphase (s.isWriting_iff.mp h.1)]
      rfl

theorem planHeard_recorded (hudp : ∀ flow, s.channel ≠ some (.tcp flow)) (d : Direction)
    (data : ByteArray) :
    s.planHeard d data = s.planRecorded
      (if s.phase = .writing then
        match s.channel with
        | some (.udp near far) => far.bind (s.framed? d data near)
        | _ => none
      else none) := by
  unfold planHeard
  rcases hchannel : s.channel with _ | flow | ⟨near, far⟩
  · rw [ite_self, ite_self]
    rfl
  · exact absurd hchannel (hudp flow)
  · exact planUdp_recorded d data near far s

theorem planReported_recorded (hudp : ∀ flow, s.channel ≠ some (.tcp flow)) (d : Direction)
    (data : ByteArray) (peer : SocketAddress) :
    s.planReported d data peer = s.planRecorded
      (if s.phase = .writing then
        match s.channel with
        | some (.udp near _) => s.framed? d data near peer.endpoint
        | _ => none
      else none) := by
  unfold planReported
  rcases hchannel : s.channel with _ | flow | ⟨near, far⟩
  · rw [ite_self, ite_self]
    rfl
  · exact absurd hchannel (hudp flow)
  · exact planUdp_recorded d data near (some peer.endpoint) s

end Session

/-- The event brings bytes that may be recorded. -/
def Event.bringsData : Event → Bool
  | .payload _ _ | .datagram _ _ _ => true
  | _ => false

namespace Session

variable {options : Options} {s : Session} {e : Event}

theorem Connectionless.channel (h : s.Connectionless) (hs : s.InStep options) (flow : Flow) :
    s.channel ≠ some (.tcp flow) := by
  by_cases hinit : s.phase = .init
  · rw [hs.unset hinit]
    exact (Option.some_ne_none _).symm
  · have hnext := h flow
    rwa [nextChannel?, if_neg hinit] at hnext

theorem Connectionless.woken_channel (h : s.Connectionless) (hs : s.InStep options) (flow : Flow) :
    s.woken.channel ≠ some (.tcp flow) := by
  unfold woken
  split
  · split
    · rename_i channel hnext
      intro hchannel
      rw [Option.some.inj hchannel] at hnext
      exact h flow hnext
    · exact h.channel hs flow
  · exact h.channel hs flow

/-- **A datagram is one batch if it is recorded, and nothing if it is not.** -/
theorem plan_recorded (hs : s.InStep options) (h : s.Connectionless) (he : e.bringsData = true) :
    s.plan e = s.woken.planRecorded (s.recorded? e) := by
  have hoptions : s.woken.options = s.options := s.woken_keeps.1
  have hframed : s.woken.framed? = s.framed? := by
    funext d data near far
    rw [framed?, framed?, hoptions]
  have hwoken : ∀ next, s.planEnsureActive.andThen next = next s.woken := by
    intro next
    rw [h.wakes]
    rfl
  cases e with
  | payload d data =>
      change s.planEnsureActive.andThen (planHeard d data) = _
      rw [hwoken, planHeard_recorded (h.woken_channel hs), recorded?, h.woken_ends, hframed]
      congr 1
      split
      · rcases s.woken.channel with _ | flow | ⟨near, far⟩ <;> rfl
      · rfl
  | datagram d data peer =>
      have hflow : ¬s.flow?.isSome = true := by
        rw [Option.isSome_iff_exists]
        rintro ⟨flow, hflow⟩
        exact h.channel hs flow (s.flow?_eq_some_iff.mp hflow)
      change (if s.flow?.isSome then s.planPayload d data
        else s.planEnsureActive.andThen (planReported d data peer)) = _
      rw [if_neg hflow, hwoken, planReported_recorded (h.woken_channel hs), recorded?, h.woken_ends,
        hframed]
      congr 1
      split
      · rcases s.woken.channel with _ | flow | ⟨near, far⟩ <;> rfl
      · rfl
  | _ => cases he

/-- A recorded packet is one that fits, of a session that holds its sink. -/
theorem recorded?_fits (hs : s.InStep options) {p : Packet} (hp : s.recorded? e = some p) :
    p.Fits ∧ s.holdsSink = true := by
  have hframed : ∀ d data near far, s.framed? d data near far = some p → p.Fits := by
    intro d data near far h
    obtain ⟨⟨-, hsize⟩, hpacket⟩ := Option.ite_none_right_eq_some.mp h
    rw [← Option.some.inj hpacket, Packet.Fits, toList_length]
    exact hsize
  have hends : ∀ ends, s.recordingEnds? = some ends → s.holdsSink = true := by
    intro ends h
    obtain ⟨hphase, -⟩ := Option.ite_none_right_eq_some.mp h
    refine hs.holds.mpr ?_
    rcases hphase with hphase | hphase <;> rw [hphase] <;> exact Phase.noConfusion
  cases e with
  | payload d data =>
      obtain ⟨ends, h, hfar⟩ := Option.bind_eq_some_iff.mp hp
      obtain ⟨far, -, hpacket⟩ := Option.bind_eq_some_iff.mp hfar
      exact ⟨hframed d data ends.1 far hpacket, hends ends h⟩
  | datagram d data peer =>
      obtain ⟨ends, h, hpacket⟩ := Option.bind_eq_some_iff.mp hp
      exact ⟨hframed d data ends.1 peer.endpoint hpacket, hends ends h⟩
  | _ => cases hp

theorem planRecorded_batches {packet : Option Packet} (h : packet ≠ none → s.holdsSink = true) :
    (s.planRecorded packet).batches = packet.toList.map fun p => [p] := by
  cases packet with
  | none => rfl
  | some p => simp [planRecorded, planBatch, h, Plan.batches, Act.packets]

/-! ### Runs -/

theorem planHeard_tcp (hs : s.protocol? = some .tcp) (d : Direction) (data : ByteArray) :
    (s.planHeard d data).session.protocol? = some .tcp := by
  unfold planHeard
  split
  · exact hs
  · split
    · unfold planTcp
      dsimp only
      split
      · rw [protocol?, planBatch_channel]
        rfl
      · rfl
    · rename_i hchannel
      rw [protocol?, hchannel] at hs
      cases hs
    · exact hs

theorem planReported_tcp (hs : s.protocol? = some .tcp) (d : Direction) (data : ByteArray)
    (peer : SocketAddress) : (s.planReported d data peer).session.protocol? = some .tcp := by
  unfold planReported
  split
  · exact hs
  · split
    · rename_i hchannel
      rw [protocol?, hchannel] at hs
      cases hs
    · exact hs

theorem plan_leads (hs : s.InStep options) (e : Event) : s.Leads (s.plan e).session := by
  have hleads : s.Leads (s.run Sink.recording [(.epoch, e)] []).session := (run_inStep _ hs).2
  rwa [run_recording] at hleads

/-- A session that brings data to a flow has come to frame TCP. -/
theorem connectionless_of_plan (hs : s.InStep options) (he : e.bringsData = true)
    (hudp : (s.plan e).session.protocol? ≠ some .tcp) : s.Connectionless := by
  intro flow hnext
  by_cases hinit : s.phase = .init
  · rw [nextChannel?, if_pos hinit] at hnext
    have hforced : s.options.forced.isSome = true := by
      cases hforced : s.options.forced with
      | none => rw [Options.channel?, hforced] at hnext; cases hnext
      | some f => rfl
    have hwoken : s.planEnsureActive.session.protocol? = some .tcp := by
      rw [planEnsureActive, if_pos ⟨hinit, hforced⟩, planActivate, if_pos hinit, hnext]
      change Session.protocol? (planBatch _ _).session = _
      rw [protocol?, planBatch_channel]
      rfl
    cases e with
    | payload d data => exact hudp (planHeard_tcp hwoken d data)
    | datagram d data peer =>
        have hflow : ¬s.flow?.isSome = true := by
          rw [flow?, hs.unset hinit]
          exact Bool.false_ne_true
        refine hudp ?_
        change Session.protocol? (planDatagram d data peer s).session = _
        rw [planDatagram, if_neg hflow]
        exact planReported_tcp hwoken d data peer
    | _ => cases he
  · rw [nextChannel?, if_neg hinit] at hnext
    refine hudp ((plan_leads hs e).protocol? ?_)
    rw [protocol?, hnext]
    rfl

/-- The batches of an event are the packet that it adds. -/
theorem plan_batches_recorded (hs : s.InStep options) (hudp : (s.plan e).session.protocol? ≠ some .tcp) :
    (s.plan e).batches = (s.recorded? e).toList.map fun p => [p] := by
  have htcp : ∀ flow, s.channel ≠ some (.tcp flow) := by
    intro flow hchannel
    refine hudp ((plan_leads hs e).protocol? ?_)
    rw [protocol?, hchannel]
    rfl
  by_cases he : e.bringsData = true
  · rw [plan_recorded hs (connectionless_of_plan hs he hudp) he]
    refine planRecorded_batches fun hp => ?_
    obtain ⟨p, hp⟩ := Option.ne_none_iff_exists'.mp hp
    rw [s.woken_keeps.2.1]
    exact (recorded?_fits hs hp).2
  · cases e with
    | payload | datagram => exact absurd rfl he
    | active connection =>
        change (s.planActivate connection).batches = []
        change (s.planActivate connection).session.protocol? ≠ some .tcp at hudp
        unfold planActivate at hudp ⊢
        split
        · rename_i hinit
          rw [if_pos hinit] at hudp
          rcases hchannel : s.options.channel? connection with _ | flow | ⟨near, far⟩
          · rfl
          · rw [hchannel] at hudp
            refine absurd ?_ hudp
            change Session.protocol? (planBatch _ _).session = _
            rw [protocol?, planBatch_channel]
            rfl
          · rfl
        · rfl
    | shutdown d => exact planShutdown_batches d s
    | error =>
        change s.planError.batches = []
        unfold planError
        split
        · rfl
        · split
          · rename_i flow hwriting hchannel
            exact absurd hchannel (htcp flow)
          · exact planFinish_batches s
    | pause => exact switch_batches rfl
    | resume => exact switch_batches rfl
    | close =>
        change s.planClose.batches = []
        unfold planClose
        split
        · rfl
        · split
          · rename_i flow hwriting hchannel
            exact absurd hchannel (htcp flow)
          · exact planFinish_batches s

/-- The batches of a run are the packets that its events add. -/
theorem timedBatches_recordings (hs : s.InStep options) (events : List TimedEvent)
    (hudp : (s.told events).protocol? ≠ some .tcp) :
    s.timedBatches events = (s.recordings events).map fun x => (x.1, [x.2]) := by
  induction events generalizing s with
  | nil => rfl
  | cons x rest ih =>
      obtain ⟨now, e⟩ := x
      have hsession : (s.handle Sink.recording now e []).session = (s.plan e).session :=
        (handle_recording now e s []).2.1
      have hafter : (s.plan e).session.InStep options := by
        rw [← hsession]
        exact (run_inStep (w := []) [(now, e)] hs).1
      have hlater : ((s.plan e).session.told rest).protocol? ≠ some .tcp := by
        rw [told_eq] at hudp ⊢
        exact hudp
      have hnow : (s.plan e).session.protocol? ≠ some .tcp :=
        fun htcp => hlater ((told_leads hafter rest).protocol? htcp)
      rw [timedBatches, recordings, hsession, ih hafter hlater, Plan.timedBatches,
        plan_batches_recorded hs hnow, List.map_append]
      simp

/-! ### A call that records nothing, and one that does -/

/-- Data that are not recorded are nothing to any sink. -/
theorem handle_unrecorded {σ : Type} (sink : Sink σ) (now : Timestamp) (w : σ)
    (hs : s.InStep options) (h : s.Connectionless) (he : e.bringsData = true)
    (hnone : s.recorded? e = none) :
    (s.handle sink now e w).result = .done ∧ (s.handle sink now e w).session = s.woken ∧
      (s.handle sink now e w).sink = w := by
  have hcarries := handle_carries sink now e s w
  rw [Carries, plan_recorded hs h he, hnone] at hcarries
  obtain ⟨hresult, hsession, hsink⟩ := Obeys.unasked hcarries
  refine ⟨hresult, hsession, hsink.trans (if_neg ?_)⟩
  rintro ⟨hheld, hreleased⟩
  exact absurd (hheld.symm.trans (s.woken_keeps.2.1.symm.trans hreleased)) (by decide)

/-- Data that are recorded are one packet in one write, after the header if that is owed. -/
theorem handle_recorded (now : Timestamp) (hs : s.InStep options) (h : s.Connectionless)
    (he : e.bringsData = true) {p : Packet} (hp : s.recorded? e = some p) :
    (s.handle Sink.recording now e []).result = .done ∧
      (s.handle Sink.recording now e []).session = { s.woken with headerOwed := false } ∧
      (s.handle Sink.recording now e []).sink.reverse =
        [.write (Act.content now s.headerOwed [p]), .flush] := by
  have hholds : s.woken.holdsSink = true := s.woken_keeps.2.1.trans (recorded?_fits hs hp).2
  have hplan : s.plan e = ⟨[.append s.headerOwed [p]], { s.woken with headerOwed := false }⟩ := by
    rw [plan_recorded hs h he, hp, ← s.woken_keeps.2.2]
    exact if_pos hholds
  obtain ⟨hresult, hsession, hsink⟩ := handle_recording now e s []
  rw [hplan] at hsession hsink
  refine ⟨hresult, hsession, ?_⟩
  rw [hsink, List.append_nil, List.reverse_reverse]
  rfl

end Session

/-! ### Peers -/

/-- The same event, but for the peer of a datagram. -/
inductive Event.SameButPeer : Event → Event → Prop
  | same (e : Event) : SameButPeer e e
  | peer (d : Direction) (data : ByteArray) (p q : SocketAddress) :
      SameButPeer (.datagram d data p) (.datagram d data q)

namespace Session

variable {s : Session} {e : Event}

theorem planUdp_far (d : Direction) (data : ByteArray) (near far far' : Endpoint) (s : Session) :
    (s.planUdp d data near (some far)).session = (s.planUdp d data near (some far')).session := by
  unfold planUdp planBatch
  split
  · dsimp only
    split <;> rfl
  · rfl

/-- What becomes of a session does not depend on peers. -/
theorem plan_session_peer {e' : Event} (h : e.SameButPeer e') (s : Session) :
    (s.plan e).session = (s.plan e').session := by
  cases h with
  | same => rfl
  | peer d data p q =>
      have hreported : ∀ s : Session,
          (s.planReported d data p).session = (s.planReported d data q).session := by
        intro s
        unfold planReported
        split
        · rfl
        · split
          · exact planUdp_far d data _ _ _ s
          · rfl
      change (planDatagram d data p s).session = (planDatagram d data q s).session
      unfold planDatagram
      split
      · rfl
      · exact hreported _

theorem planAll_session_peer {events others : List Event}
    (h : List.Forall₂ Event.SameButPeer events others) (s : Session) :
    (s.planAll events).session = (s.planAll others).session := by
  induction h generalizing s with
  | nil => rfl
  | cons hfirst _ ih =>
      change (planAll _ (plan _ s).session).session = (planAll _ (plan _ s).session).session
      rw [plan_session_peer hfirst s, ih]

/-- Becoming active on a channel of datagrams asks nothing of any sink. -/
theorem ensureActive_udp {near : Endpoint} {far : Option Endpoint}
    (hnext : s.nextChannel? = some (.udp near far)) {σ : Type} (sink : Sink σ) (now : Timestamp) (w : σ) :
    ∃ (after : Session) (notes : List Note), s.ensureActive sink now w = after.quiet w notes ∧
      after.channel = some (.udp near far) := by
  by_cases hinit : s.phase = .init
  · rw [nextChannel?, if_pos hinit] at hnext
    cases hforced : s.options.forced with
    | none =>
        rw [Options.channel?, hforced] at hnext
        cases hnext
    | some f =>
        rw [Options.channel?_forced hforced] at hnext
        have hstarts : s.activate sink now none w = s.start sink now f.addresses f.channel w := by
          unfold activate
          rw [if_pos hinit, hforced]
        rw [ensureActive, if_pos ⟨hinit, by simp [hforced]⟩, hstarts, Option.some.inj hnext]
        exact ⟨_, _, rfl, rfl⟩
  · rw [nextChannel?, if_neg hinit] at hnext
    exact ⟨s, [], ensureActive_awake hinit, hnext⟩

/-- **The far end of the channel is no other peer than the channel's own.** -/
theorem datagram_own_peer {options : Options} {near : Endpoint} {peer : SocketAddress}
    (hs : s.InStep options) (hnext : s.nextChannel? = some (.udp near (some peer.endpoint))) {σ : Type}
    (sink : Sink σ) (now : Timestamp) (d : Direction) (data : ByteArray) (w : σ) :
    (s.datagram sink now d data peer w).Agrees (s.payload sink now d data w) := by
  have hflow : ¬s.flow?.isSome = true := by
    rw [Option.isSome_iff_exists]
    rintro ⟨flow, hflow⟩
    have hudp : s.Connectionless := fun flow htcp => by cases hnext.symm.trans htcp
    exact hudp.channel hs flow (s.flow?_eq_some_iff.mp hflow)
  obtain ⟨after, notes, hfirst, hchannel⟩ := ensureActive_udp hnext sink now w
  rw [datagram, if_neg hflow, payload, hfirst]
  refine (Reply.andThen_of_done rfl).trans (.trans ?_ (Reply.andThen_of_done rfl).symm)
  change Reply.Agrees
    (if after.phase = .init ∨ after.phase = .closed then _ else if after.skips data then _ else _)
    (if after.phase = .init ∨ after.phase = .closed then _ else if after.skips data then _ else _)
  by_cases hidle : after.phase = .init ∨ after.phase = .closed
  · rw [if_pos hidle, if_pos hidle]
    exact ⟨rfl, rfl, rfl⟩
  · rw [if_neg hidle, if_neg hidle]
    by_cases hskips : after.skips data = true
    · rw [if_pos hskips, if_pos hskips]
      exact ⟨rfl, rfl, rfl⟩
    · rw [if_neg hskips, if_neg hskips]
      refine (Reply.andThen_of_done rfl).trans ?_
      simp only [quiet, hchannel]
      exact ⟨rfl, rfl, rfl⟩

/-! ### The capture -/

/-- A session that frames no TCP is not about to. -/
theorem connectionless_of_not_framesTcp {options : Options} (hs : s.InStep options)
    (hudp : ¬s.FramesTcp) : s.Connectionless := by
  intro flow hnext
  refine hudp ?_
  by_cases hinit : s.phase = .init
  · rw [nextChannel?, if_pos hinit] at hnext
    cases hforced : s.options.forced with
    | none => rw [Options.channel?, hforced] at hnext; cases hnext
    | some f =>
        rw [Options.channel?_forced hforced] at hnext
        cases f with
        | tcp server client localIsServer => exact .inr ⟨hs.unset hinit, _, _, _, hforced⟩
        | udp near far => cases hnext
  · rw [nextChannel?, if_neg hinit] at hnext
    exact .inl ⟨flow, hnext⟩

theorem recordings_fit {options : Options} (hs : s.InStep options) (events : List TimedEvent) :
    ∀ x ∈ s.recordings events, x.2.Fits := by
  induction events generalizing s with
  | nil => exact List.forall_mem_nil _
  | cons y rest ih =>
      obtain ⟨now, e⟩ := y
      have hafter : (s.handle Sink.recording now e []).session.InStep options :=
        (run_inStep (w := ([] : List SinkCall)) [(now, e)] hs).1
      rw [recordings, List.forall_mem_append]
      refine ⟨?_, ih hafter⟩
      intro x hx
      obtain ⟨p, hp, rfl⟩ := List.mem_map.mp hx
      exact (recorded?_fits hs (Option.mem_toList.mp hp)).1

end Session

/-- A capture of packets that fit is read back as their records. -/
theorem CaptureFile.read?_packets {packets : List (Timestamp × Packet)}
    (hfits : ∀ x ∈ packets, x.2.Fits) (owed closes : Bool) :
    ∃ headed, CaptureFile.read? headed
        (written (captureCalls owed closes (packets.map fun x => (x.1, [x.2])))) =
      some (packets.map fun x => x.2.record x.1, []) := by
  have hframes : ∀ r ∈ packets.map (fun x => x.2.record x.1), r.frame.length < UInt32.size := by
    intro r hr
    obtain ⟨x, hx, rfl⟩ := List.mem_map.mp hr
    exact Nat.lt_of_le_of_lt (hfits x hx).frame_length_le (by decide)
  have hend : CaptureFile.decode [] = ([], []) := CaptureFile.decode_of_read?_none rfl
  have hall := CaptureFile.decode_encode_append hframes []
  rw [hend, List.append_nil, List.append_nil] at hall
  rw [written_capture, List.flatMap_map]
  simp only [List.map_singleton, ← List.map_eq_flatMap]
  exact ⟨_, (CaptureFile.read?_opening_append _ _).trans (congrArg some hall)⟩

namespace Session

/-- **Exactly the datagrams that can be recorded are recorded, each once.** The events that a session of
datagrams is told add a packet each or none, in their order and each by a write of its own, and the capture
is read back as these. Of the next data the session makes one write, or leaves any sink alone and is as it
was but for becoming active. Whatever peers it was told of before, it is the same session; and its own far
end as a peer makes a datagram a payload. -/
theorem datagrams_recorded (options : Options) (events : List TimedEvent)
    (hudp : ¬((create options).run Sink.recording events []).session.FramesTcp) :
    let course := (create options).run Sink.recording events []
    let s := course.session
    let recordings := (create options).recordings events
    ((∀ result ∈ course.results, result = .done) ∧
      course.sink.reverse = captureCalls (!options.shared && options.fileHeader)
        (s.phase == .closed && !options.shared) (recordings.map fun x => (x.1, [x.2])) ∧
      (∀ x ∈ recordings, Packet.ofFrame? x.2.frame = some x.2) ∧
      ∃ headed, CaptureFile.read? headed (written course.sink.reverse) =
        some (recordings.map fun x => x.2.record x.1, [])) ∧
    (∀ now e, e.bringsData = true →
      match s.recorded? e with
      | some p =>
        (s.handle Sink.recording now e []).result = .done ∧
          (s.handle Sink.recording now e []).session = { s.woken with headerOwed := false } ∧
          (s.handle Sink.recording now e []).sink.reverse =
            [.write (Act.content now s.headerOwed [p]), .flush]
      | none =>
        ∀ (σ : Type) (sink : Sink σ) (w : σ), (s.handle sink now e w).result = .done ∧
          (s.handle sink now e w).session = s.woken ∧ (s.handle sink now e w).sink = w) ∧
    (∀ others, List.Forall₂ (fun x y => x.1 = y.1 ∧ x.2.SameButPeer y.2) events others →
      ((create options).run Sink.recording others []).session = s ∧
        ∀ later, (create options).recordings (events ++ later) = recordings ++ s.recordings later ∧
          (create options).recordings (others ++ later) =
            (create options).recordings others ++ s.recordings later) ∧
    ∀ near peer, s.nextChannel? = some (.udp near (some peer.endpoint)) →
      ∀ (σ : Type) (sink : Sink σ) now d data w,
        (s.datagram sink now d data peer w).Agrees (s.payload sink now d data w) := by
  intro course s recordings
  have hstart := create_inStep options
  obtain ⟨hs, -⟩ : s.InStep options ∧ _ := run_inStep events hstart
  have hnext : s.Connectionless := connectionless_of_not_framesTcp hs hudp
  have htcp : ((create options).told events).protocol? ≠ some .tcp := by
    intro htcp
    obtain ⟨c, hc, hprotocol⟩ := Option.map_eq_some_iff.mp htcp
    cases c with
    | tcp flow => exact hudp (.inl ⟨flow, hc⟩)
    | udp near far => cases hprotocol
  have hfits := recordings_fit hstart events
  have hcalls : course.sink.reverse = captureCalls (!options.shared && options.fileHeader)
      (s.phase == .closed && !options.shared) (recordings.map fun x => (x.1, [x.2])) := by
    rw [← timedBatches_recordings hstart events htcp]
    exact run_calls options events
  refine ⟨⟨?_, hcalls, ?_, ?_⟩, ?_, ?_, ?_⟩
  · intro result hresult
    rw [show course.results = _ from congrArg Course.results (run_recording events _ [])] at hresult
    exact List.eq_of_mem_replicate hresult
  · intro x hx
    have hframe := (hfits x hx).ofFrame?_frame []
    rwa [List.append_nil] at hframe
  · rw [hcalls]
    exact CaptureFile.read?_packets hfits _ _
  · intro now e he
    split
    · rename_i p hp
      exact handle_recorded now hs hnext he hp
    · rename_i hnone
      exact fun σ sink w => handle_unrecorded sink now w hs hnext he hnone
  · intro others hothers
    have hpeers : List.Forall₂ Event.SameButPeer (events.map Prod.snd) (others.map Prod.snd) := by
      rw [List.forall₂_map_left_iff, List.forall₂_map_right_iff]
      exact hothers.imp fun _ _ h => h.2
    have hsame : ((create options).run Sink.recording others []).session = s := by
      rw [show s = _ from congrArg Course.session (run_recording events _ []), run_recording]
      exact (planAll_session_peer hpeers _).symm
    refine ⟨hsame, fun later => ⟨recordings_append events later _ [], ?_⟩⟩
    rw [recordings_append others later _ [], hsame]
  · intro near peer hfar σ sink now d data w
    exact datagram_own_peer hs hfar sink now d data w

/-- A socket without a far end hears a byte from a peer, sends one to nobody in particular, nothing to the
peer, one to it while paused, and answers it. -/
def unboundTalk (peer : SocketAddress) : List TimedEvent :=
  [.active (some ⟨.v4 ⟨10, 0, 0, 1⟩ 53, none, .udp⟩), .datagram .inbound ⟨#[97]⟩ peer,
    .payload .outbound ⟨#[98]⟩, .datagram .outbound ⟨#[]⟩ peer, .pause, .datagram .outbound ⟨#[99]⟩ peer,
    .resume, .datagram .outbound ⟨#[100]⟩ peer].map fun e => (.epoch, e)

theorem datagrams_recorded_unbound :
    let options : Options := { id := "unbound" }
    let here : SocketAddress := .v4 ⟨10, 0, 0, 2⟩ 4000
    let there : SocketAddress := .v4 ⟨10, 0, 0, 3⟩ 4000
    let course := (create options).run Sink.recording (unboundTalk here) []
    ¬course.session.FramesTcp ∧
      (create options).recordings (unboundTalk here) =
        [(.epoch, .udp ⟨⟨10, 0, 0, 2⟩, 4000⟩ ⟨⟨10, 0, 0, 1⟩, 53⟩ [97]),
          (.epoch, .udp ⟨⟨10, 0, 0, 1⟩, 53⟩ ⟨⟨10, 0, 0, 2⟩, 4000⟩ [100])] ∧
      (∃ headed, CaptureFile.read? headed (written course.sink.reverse) =
        some (((create options).recordings (unboundTalk here)).map fun x => x.2.record x.1, [])) ∧
      ((create options).run Sink.recording (unboundTalk there) []).session = course.session := by
  intro options here there course
  have hchannel : course.session.channel = some (.udp ⟨⟨10, 0, 0, 1⟩, 53⟩ none) := by
    decide +kernel
  have hudp : ¬course.session.FramesTcp := by
    rintro (⟨flow, hflow⟩ | ⟨hnone, -⟩)
    · cases hchannel.symm.trans hflow
    · cases hchannel.symm.trans hnone
  obtain ⟨⟨-, -, -, hread⟩, -, hpeers, -⟩ := datagrams_recorded options (unboundTalk here) hudp
  refine ⟨hudp, by decide +kernel, hread, (hpeers (unboundTalk there) ?_).1⟩
  rw [unboundTalk, unboundTalk, List.forall₂_map_left_iff, List.forall₂_map_right_iff]
  refine .cons ⟨rfl, .same _⟩ (.cons ⟨rfl, .peer ..⟩ (.cons ⟨rfl, .same _⟩ (.cons ⟨rfl, .peer ..⟩
    (.cons ⟨rfl, .same _⟩ (.cons ⟨rfl, .peer ..⟩ (.cons ⟨rfl, .same _⟩ (.cons ⟨rfl, .peer ..⟩ .nil)))))))

end Session

end Wiretap
