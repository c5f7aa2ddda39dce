import Wiretap.Proofs.Course

/-! The sessions that a run can come to, whatever its sink does, panics included. Until it is awake a
session is as it was created; once it is awake it stays so, and has a channel unless it was closed before
it ever had one. -/

namespace Wiretap

namespace Session

/-- The session is not before its beginning, and has a channel if it is not after its end. -/
def Awake (s : Session) : Prop := s.phase ≠ .init ∧ (s.channel = none → s.phase = .closed)

/-- Some run of a session with the options comes to this one. -/
def Reached (options : Options) (s : Session) : Prop :=
  ∃ (σ : Type) (sink : Sink σ) (events : List TimedEvent) (w : σ),
    ((create options).run sink events w).session = s

/-- The session was just created, or is awake. -/
def CreatedOrAwake (options : Options) (s : Session) : Prop := s = create options ∨ s.Awake

variable {σ : Type} {sink : Sink σ} {options : Options} {s : Session}

theorem Awake.ended (s : Session) : s.ended.Awake := ⟨Phase.noConfusion, fun _ => rfl⟩

theorem CreatedOrAwake.awake (h : s.CreatedOrAwake options) (hs : s.phase ≠ .init) : s.Awake := by
  rcases h with rfl | hawake
  · exact absurd rfl hs
  · exact hawake

theorem andThen_session {P : Session → Prop} {r : Reply σ} {next : Session → σ → Reply σ}
    (h : P r.session) (hnext : ∀ s w, P s → P (next s w).session) :
    P (r.andThen next).session := by
  unfold Reply.andThen
  split
  · exact hnext _ _ h
  · exact h

theorem writeBatch_awake (batch : List Record) (w : σ) (hs : s.Awake) :
    (s.writeBatch sink batch w).session.Awake := by
  unfold writeBatch
  split
  · dsimp only
    split
    · exact hs
    · exact hs
    · split
      · exact .ended s
      · split <;> exact .ended s
  · exact hs

theorem finish_awake (s : Session) (w : σ) : (s.finish sink w).session.Awake := by
  unfold finish
  split
  · split
    · exact .ended s
    · dsimp only
      split
      · exact ⟨Phase.noConfusion, fun _ => rfl⟩
      · split <;> exact ⟨Phase.noConfusion, fun _ => rfl⟩
  · exact .ended s

theorem start_awake (now : Timestamp) (addresses : List SocketAddress) (channel : Channel)
    (s : Session) (w : σ) : (s.start sink now addresses channel w).session.Awake := by
  cases channel with
  | udp near far => exact ⟨Phase.noConfusion, fun h => by cases h⟩
  | tcp flow =>
      refine andThen_session (P := Awake) ⟨Phase.noConfusion, ?_⟩ ?_
      · intro h
        cases h
      · intro s w h
        exact writeBatch_awake _ w h

variable (now : Timestamp) (w : σ)

theorem activate_keeps_awake (connection : Option Connection) (hs : s.CreatedOrAwake options) :
    (s.activate sink now connection w).session.CreatedOrAwake options := by
  unfold activate
  split
  · split
    · exact .inr (start_awake now _ _ s w)
    · exact .inr (start_awake now _ _ s w)
    · exact hs
  · exact hs

theorem ensureActive_keeps_awake (hs : s.CreatedOrAwake options) :
    (s.ensureActive sink now w).session.CreatedOrAwake options := by
  unfold ensureActive
  split
  · exact activate_keeps_awake now w none hs
  · exact hs

theorem recordTcp_awake (d : Direction) (data : ByteArray) (flow : Flow) (hs : s.Awake) :
    (s.recordTcp sink now d data flow w).session.Awake := by
  have hcounted : ∀ f, ({ s with channel := some (.tcp f) } : Session).Awake := by
    intro f
    exact ⟨hs.1, fun h => by cases h⟩
  unfold recordTcp
  dsimp only
  split
  · exact andThen_session (P := Awake) (hcounted _) fun s w h => writeBatch_awake _ w h
  · exact hcounted _

theorem recordUdp_awake (d : Direction) (data : ByteArray) (near : Endpoint) (far : Option Endpoint)
    (hs : s.Awake) : (s.recordUdp sink now d data near far w).session.Awake := by
  unfold recordUdp
  split
  · split
    · exact hs
    · split
      · exact hs
      · exact andThen_session (P := Awake) hs fun s w h => writeBatch_awake _ w h
  · exact hs

theorem payload_keeps_awake (d : Direction) (data : ByteArray) (hs : s.CreatedOrAwake options) :
    (s.payload sink now d data w).session.CreatedOrAwake options := by
  refine andThen_session (P := CreatedOrAwake options) (ensureActive_keeps_awake now w hs) ?_
  intro s w h
  split
  · exact h
  · rename_i hphase
    have hawake := h.awake fun hinit => hphase (.inl hinit)
    split
    · exact h
    · split
      · exact .inr (recordTcp_awake now w d data _ hawake)
      · exact .inr (recordUdp_awake now w d data _ _ hawake)
      · exact h

theorem datagram_keeps_awake (d : Direction) (data : ByteArray) (peer : SocketAddress)
    (hs : s.CreatedOrAwake options) : (s.datagram sink now d data peer w).session.CreatedOrAwake options := by
  unfold datagram
  split
  · exact payload_keeps_awake now w d data hs
  · refine andThen_session (P := CreatedOrAwake options) (ensureActive_keeps_awake now w hs) ?_
    intro s w h
    split
    · exact h
    · rename_i hphase
      have hawake := h.awake fun hinit => hphase (.inl hinit)
      split
      · exact h
      · refine .inr (andThen_session (P := Awake) hawake ?_)
        intro s w h
        split
        · exact recordUdp_awake now w d data _ _ h
        · exact h

theorem shutdown_keeps_awake (d : Direction) (hs : s.CreatedOrAwake options) :
    (s.shutdown d w).session.CreatedOrAwake options := by
  unfold shutdown
  split
  · rename_i flow hinitiator hflow
    rcases hs with rfl | hawake
    · cases hflow
    · exact .inr hawake
  · exact hs

theorem error_keeps_awake (hs : s.CreatedOrAwake options) : (s.error sink now w).session.CreatedOrAwake options := by
  unfold error
  split
  · exact hs
  · rename_i hphase
    split
    · rename_i flow hwriting hchannel
      have hinit : s.phase ≠ .init := by
        rw [isWriting_iff] at hwriting
        rw [hwriting]
        exact Phase.noConfusion
      exact .inr (andThen_session (P := Awake) (writeBatch_awake _ w (hs.awake hinit))
        fun s w _ => finish_awake s w)
    · exact .inr (finish_awake s w)

theorem close_keeps_awake (hs : s.CreatedOrAwake options) : (s.close sink now w).session.CreatedOrAwake options := by
  unfold close
  split
  · exact hs
  · split
    · rename_i flow hwriting hchannel
      rw [isWriting_iff] at hwriting
      refine .inr (andThen_session (P := Awake) (writeBatch_awake _ w ?_) fun s w _ => finish_awake s w)
      refine ⟨?_, fun h => by cases h⟩
      change s.phase ≠ .init
      rw [hwriting]
      exact Phase.noConfusion
    · exact .inr (finish_awake s w)

theorem pause_keeps_awake (hs : s.CreatedOrAwake options) : (s.pause w).session.CreatedOrAwake options := by
  unfold pause
  split
  · rename_i hphase
    have hawake := hs.awake (by rw [hphase]; exact Phase.noConfusion)
    refine .inr ⟨Phase.noConfusion, ?_⟩
    intro h
    exact absurd (hawake.2 h) (by rw [hphase]; exact Phase.noConfusion)
  · exact hs

theorem resume_keeps_awake (hs : s.CreatedOrAwake options) : (s.resume w).session.CreatedOrAwake options := by
  unfold resume
  split
  · rename_i hphase
    have hawake := hs.awake (by rw [hphase]; exact Phase.noConfusion)
    refine .inr ⟨Phase.noConfusion, ?_⟩
    intro h
    exact absurd (hawake.2 h) (by rw [hphase]; exact Phase.noConfusion)
  · exact hs

theorem handle_keeps_awake (e : Event) (hs : s.CreatedOrAwake options) :
    (s.handle sink now e w).session.CreatedOrAwake options := by
  cases e with
  | active connection => exact activate_keeps_awake now w connection hs
  | payload d data => exact payload_keeps_awake now w d data hs
  | datagram d data peer => exact datagram_keeps_awake now w d data peer hs
  | shutdown d => exact shutdown_keeps_awake w d hs
  | error => exact error_keeps_awake now w hs
  | pause => exact pause_keeps_awake w hs
  | resume => exact resume_keeps_awake w hs
  | close => exact close_keeps_awake now w hs

/-- **A session that a run comes to was just created, or is awake.** -/
theorem Reached.createdOrAwake (h : Reached options s) : s.CreatedOrAwake options := by
  obtain ⟨σ, sink, events, w, rfl⟩ := h
  have hrun : ∀ (events : List TimedEvent) (s : Session) (w : σ), s.CreatedOrAwake options →
      (s.run sink events w).session.CreatedOrAwake options := by
    intro events
    induction events with
    | nil => exact fun s w hs => hs
    | cons x rest ih => exact fun s w hs => ih _ _ (handle_keeps_awake x.1 w x.2 hs)
  exact hrun events (create options) w (.inl rfl)

end Session

end Wiretap
