import Wiretap.Proofs.Plan

/-! What a session can do, said once. A plan is a path of small steps: beginning on a channel, sending a
payload of the flow, recording a datagram, marking who stopped first, pausing and resuming, recording the
end of the flow, and ending. Each step comes with the guard under which an operation takes it, and what
holds of every session is proved from these steps. -/

namespace Wiretap

/-- One thing that a session does within an operation. -/
inductive SessionStep (s : Session) : Plan → Prop
  | starts (connection : Option Connection) (channel : Channel) (hphase : s.phase = .init)
      (hchannel : s.options.channel? connection = some channel) : SessionStep s (s.planStart channel)
  | sends (d : Direction) (data : ByteArray) (flow : Flow)
      (hphase : s.phase = .writing ∨ s.phase = .paused) (hchannel : s.channel = some (.tcp flow)) :
      SessionStep s (s.planTcp d data flow)
  | reports (d : Direction) (data : ByteArray) (near : Endpoint) (known far : Option Endpoint)
      (hphase : s.phase = .writing ∨ s.phase = .paused)
      (hchannel : s.channel = some (.udp near known)) : SessionStep s (s.planUdp d data near far)
  | marks (d : Direction) (flow : Flow) (hinitiator : s.initiator = none)
      (hchannel : s.channel = some (.tcp flow)) :
      SessionStep s (Session.planNothing { s with initiator := some (flow.sender d) })
  | pauses (hphase : s.phase = .writing) :
      SessionStep s (Session.planNothing { s with phase := .paused })
  | resumes (hphase : s.phase = .paused) :
      SessionStep s (Session.planNothing { s with phase := .writing })
  | resets (flow : Flow) (hphase : s.phase = .writing) (hchannel : s.channel = some (.tcp flow)) :
      SessionStep s (s.planBatch (barePackets [flow.reset s.closeInitiator]))
  | closes (flow : Flow) (hphase : s.phase = .writing) (hchannel : s.channel = some (.tcp flow)) :
      SessionStep s (Session.planBatch (barePackets (flow.close s.closeInitiator).1)
        { s with channel := some (.tcp (flow.close s.closeInitiator).2) })
  | finishes (hphase : s.phase ≠ .closed) : SessionStep s s.planFinish

/-- Steps one after another. -/
inductive SessionPath : Session → Plan → Prop
  | nil (s : Session) : SessionPath s s.planNothing
  | cons {s : Session} {p q : Plan} (hstep : SessionStep s p) (hpath : SessionPath p.session q) :
      SessionPath s ⟨p.acts ++ q.acts, q.session⟩

namespace SessionPath

theorem single {s : Session} {p : Plan} (h : SessionStep s p) : SessionPath s p := by
  have hpath := cons h (nil p.session)
  rwa [Session.planNothing, List.append_nil] at hpath

theorem append {s : Session} {p q : Plan} (h : SessionPath s p) (h' : SessionPath p.session q) :
    SessionPath s ⟨p.acts ++ q.acts, q.session⟩ := by
  induction h with
  | nil s => exact h'
  | cons hstep _ ih =>
      have hpath := cons hstep (ih h')
      rwa [← List.append_assoc] at hpath

theorem andThen {s : Session} {p : Plan} {next : Session → Plan} (h : SessionPath s p)
    (h' : SessionPath p.session (next p.session)) : SessionPath s (p.andThen next) :=
  h.append h'

end SessionPath

namespace Session

theorem isWriting_iff (s : Session) : s.isWriting = true ↔ s.phase = .writing := by
  simp [isWriting]

theorem flow?_eq_some_iff (s : Session) {flow : Flow} :
    s.flow? = some flow ↔ s.channel = some (.tcp flow) := by
  unfold flow?
  rcases s.channel with _ | f | ⟨near, far⟩ <;> simp [Channel.flow?]

theorem activate_path (connection : Option Connection) (s : Session) :
    SessionPath s (s.planActivate connection) := by
  unfold planActivate
  by_cases hphase : s.phase = .init
  · rw [if_pos hphase]
    cases hchannel : s.options.channel? connection with
    | some channel => exact .single (.starts connection channel hphase hchannel)
    | none => exact .nil s
  · rw [if_neg hphase]
    exact .nil s

theorem ensureActive_path (s : Session) : SessionPath s s.planEnsureActive := by
  unfold planEnsureActive
  split
  · exact s.activate_path none
  · exact .nil s

/-- A session that is neither before its beginning nor after its end. -/
theorem active_of_not_idle {s : Session} (h : ¬(s.phase = .init ∨ s.phase = .closed)) :
    s.phase = .writing ∨ s.phase = .paused := by
  cases hphase : s.phase <;> simp [hphase] at h ⊢

theorem payload_path (d : Direction) (data : ByteArray) (s : Session) :
    SessionPath s (s.planPayload d data) := by
  refine SessionPath.andThen s.ensureActive_path ?_
  generalize s.planEnsureActive.session = s
  unfold planHeard
  split
  · exact .nil s
  · rename_i hskip
    have hphase := active_of_not_idle (fun h => hskip (.inl h))
    rcases hchannel : s.channel with _ | flow | ⟨near, far⟩
    · exact .nil s
    · exact .single (.sends d data flow hphase hchannel)
    · exact .single (.reports d data near far far hphase hchannel)

theorem datagram_path (d : Direction) (data : ByteArray) (peer : SocketAddress) (s : Session) :
    SessionPath s (s.planDatagram d data peer) := by
  unfold planDatagram
  split
  · exact s.payload_path d data
  · refine SessionPath.andThen s.ensureActive_path ?_
    generalize s.planEnsureActive.session = s
    split
    · exact .nil s
    · rename_i hskip
      have hphase := active_of_not_idle (fun h => hskip (.inl h))
      rcases hchannel : s.channel with _ | flow | ⟨near, far⟩
      · exact .nil s
      · exact .nil s
      · exact .single (.reports d data near far (some peer.endpoint) hphase hchannel)

theorem shutdown_path (d : Direction) (s : Session) : SessionPath s (s.planShutdown d) := by
  unfold planShutdown
  cases hinitiator : s.initiator with
  | some side => exact .nil s
  | none =>
      cases hflow : s.flow? with
      | some flow => exact .single (.marks d flow hinitiator (s.flow?_eq_some_iff.mp hflow))
      | none => exact .nil s

theorem error_path (s : Session) : SessionPath s s.planError := by
  unfold planError
  split
  · exact .nil s
  · rename_i hphase
    cases hwriting : s.isWriting with
    | false => exact .single (.finishes hphase)
    | true =>
        rcases hchannel : s.channel with _ | flow | ⟨near, far⟩
        · exact .single (.finishes hphase)
        · exact SessionPath.andThen (.single (.resets flow (s.isWriting_iff.mp hwriting) hchannel))
            (.single (.finishes (by rwa [planBatch_phase])))
        · exact .single (.finishes hphase)

theorem close_path (s : Session) : SessionPath s s.planClose := by
  unfold planClose
  split
  · exact .nil s
  · rename_i hphase
    cases hwriting : s.isWriting with
    | false => exact .single (.finishes hphase)
    | true =>
        rcases hchannel : s.channel with _ | flow | ⟨near, far⟩
        · exact .single (.finishes hphase)
        · exact SessionPath.andThen (.single (.closes flow (s.isWriting_iff.mp hwriting) hchannel))
            (.single (.finishes (by rwa [planBatch_phase])))
        · exact .single (.finishes hphase)

/-- **Every plan is a path of steps.** -/
theorem plan_path (e : Event) (s : Session) : SessionPath s (s.plan e) := by
  cases e with
  | active connection => exact s.activate_path connection
  | payload d data => exact s.payload_path d data
  | datagram d data peer => exact s.datagram_path d data peer
  | shutdown d => exact s.shutdown_path d
  | error => exact s.error_path
  | pause =>
      change SessionPath s s.planPause
      unfold planPause
      split
      · exact .single (.pauses ‹_›)
      · exact .nil s
  | resume =>
      change SessionPath s s.planResume
      unfold planResume
      split
      · exact .single (.resumes ‹_›)
      · exact .nil s
  | close => exact s.close_path

/-! ### After the end

A session that has let its sink go asks nothing of it, and a closed one stays closed. -/

end Session

open Session

theorem SessionStep.released {s : Session} {p : Plan} (h : SessionStep s p)
    (hs : s.holdsSink = false) : p.acts = [] ∧ p.session.holdsSink = false := by
  cases h with
  | starts connection channel => cases channel <;> simp [planStart, planNothing, hs]
  | sends d data flow =>
      unfold planTcp
      dsimp only
      split <;> simp [planNothing, hs]
  | reports d data near known far =>
      unfold planUdp
      split
      · cases far <;> simp [planNothing, hs]
      · exact ⟨rfl, hs⟩
  | resets => simp [hs]
  | closes => simp [hs]
  | finishes =>
      rw [planFinish, if_neg (by simp [hs])]
      exact ⟨rfl, rfl⟩
  | _ => exact ⟨rfl, hs⟩

theorem SessionPath.released {s : Session} {p : Plan} (h : SessionPath s p)
    (hs : s.holdsSink = false) : p.acts = [] ∧ p.session.holdsSink = false := by
  induction h with
  | nil s => exact ⟨rfl, hs⟩
  | cons hstep _ ih =>
      obtain ⟨hacts, hholds⟩ := hstep.released hs
      obtain ⟨hacts', hholds'⟩ := ih hholds
      exact ⟨by rw [hacts, hacts', List.append_nil], hholds'⟩

/-- The options of a session are those it was created with. -/
theorem SessionStep.options {s : Session} {p : Plan} (h : SessionStep s p) :
    p.session.options = s.options := by
  cases h with
  | starts connection channel => cases channel <;> simp [planStart, planNothing]
  | sends d data flow =>
      unfold planTcp
      dsimp only
      split <;> simp [planNothing]
  | reports d data near known far =>
      unfold planUdp
      split
      · cases far <;> simp [planNothing]
      · rfl
  | resets => simp
  | closes => simp
  | finishes =>
      unfold planFinish
      split <;> rfl
  | _ => rfl

theorem SessionPath.options {s : Session} {p : Plan} (h : SessionPath s p) :
    p.session.options = s.options := by
  induction h with
  | nil s => rfl
  | cons hstep _ ih => exact ih.trans hstep.options

/-- A closed session only ever learns who stopped first. -/
theorem SessionStep.closed {s : Session} {p : Plan} (h : SessionStep s p)
    (hs : s.phase = .closed) : p.acts = [] ∧ p.session.phase = .closed := by
  cases h with
  | marks => exact ⟨rfl, hs⟩
  | finishes hphase => exact absurd hs hphase
  | _ => simp_all

theorem SessionPath.closed {s : Session} {p : Plan} (h : SessionPath s p)
    (hs : s.phase = .closed) : p.acts = [] ∧ p.session.phase = .closed := by
  induction h with
  | nil s => exact ⟨rfl, hs⟩
  | cons hstep _ ih =>
      obtain ⟨hacts, hphase⟩ := hstep.closed hs
      obtain ⟨hacts', hphase'⟩ := ih hphase
      exact ⟨by rw [hacts, hacts', List.append_nil], hphase'⟩

theorem SessionPath.closed_channel {s : Session} {p : Plan} (h : SessionPath s p) (hs : s.phase = .closed) :
    p.session.channel = s.channel := by
  induction h with
  | nil s => rfl
  | cons hstep _ ih =>
      refine (ih (hstep.closed hs).2).trans ?_
      cases hstep with
      | marks => rfl
      | finishes hphase => exact absurd hs hphase
      | _ => simp_all

/-! ### Before the beginning

Until it is active a session is as it was created. -/

theorem SessionStep.awake {s : Session} {p : Plan} (h : SessionStep s p) (hs : s.phase ≠ .init) :
    p.session.phase ≠ .init := by
  cases h with
  | starts connection channel hphase => exact absurd hphase hs
  | sends d data flow =>
      unfold planTcp
      dsimp only
      split
      · rwa [planBatch_phase]
      · exact hs
  | reports d data near known far =>
      unfold planUdp
      split
      · cases far with
        | none => exact hs
        | some far => rwa [planBatch_phase]
      · exact hs
  | marks => exact hs
  | pauses => exact Phase.noConfusion
  | resumes => exact Phase.noConfusion
  | resets => rwa [planBatch_phase]
  | closes => rwa [planBatch_phase]
  | finishes =>
      unfold planFinish
      split <;> exact Phase.noConfusion

theorem SessionPath.awake {s : Session} {p : Plan} (h : SessionPath s p) (hs : s.phase ≠ .init) :
    p.session.phase ≠ .init := by
  induction h with
  | nil s => exact hs
  | cons hstep _ ih => exact ih (hstep.awake hs)

theorem SessionStep.wakes {s : Session} {p : Plan} (h : SessionStep s p) (hs : s.channel = none) :
    p.session.phase ≠ .init := by
  cases h with
  | starts connection channel =>
      cases channel with
      | udp near far => exact Phase.noConfusion
      | tcp flow =>
          rw [planStart, planBatch_phase]
          exact Phase.noConfusion
  | pauses => exact Phase.noConfusion
  | resumes => exact Phase.noConfusion
  | finishes =>
      unfold planFinish
      split <;> exact Phase.noConfusion
  | _ => simp_all

theorem SessionPath.asleep {s : Session} {p : Plan} (h : SessionPath s p) (hs : s.channel = none)
    (hp : p.session.phase = .init) : p = s.planNothing := by
  cases h with
  | nil => rfl
  | cons hstep hpath => exact absurd hp (hpath.awake (hstep.wakes hs))

end Wiretap
