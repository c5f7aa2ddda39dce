import Wiretap.Proofs.Batches

/-! The owed header. No plan minds whether the file header is still owed: what an event makes of two
sessions that differ in nothing else are the same batches, and two sessions that differ in nothing else
again. Only where the header goes is decided by it. -/

namespace Wiretap

namespace Session

/-- The session without its debt of a header. -/
def settled (s : Session) : Session := { s with headerOwed := false }

theorem settled_eq_iff {s t : Session} : s.settled = t.settled ↔
    s.options = t.options ∧ s.phase = t.phase ∧ s.holdsSink = t.holdsSink ∧ s.channel = t.channel ∧
      s.initiator = t.initiator := by
  simp [settled]

theorem settled_counted {s t : Session} (h : s.settled = t.settled) (channel : Option Channel) :
    settled { s with channel } = settled { t with channel } := by
  obtain ⟨hoptions, hphase, hholds, -, hinitiator⟩ := settled_eq_iff.mp h
  exact settled_eq_iff.mpr ⟨hoptions, hphase, hholds, rfl, hinitiator⟩

theorem settled_turned {s t : Session} (h : s.settled = t.settled) (phase : Phase) :
    settled { s with phase } = settled { t with phase } := by
  obtain ⟨hoptions, -, hholds, hchannel, hinitiator⟩ := settled_eq_iff.mp h
  exact settled_eq_iff.mpr ⟨hoptions, rfl, hholds, hchannel, hinitiator⟩

theorem isWriting_of_phase {s t : Session} (h : s.phase = t.phase) : s.isWriting = t.isWriting := by
  rw [isWriting, isWriting, h]

end Session

/-- What comes of a plan, wherever the header goes. -/
def Plan.bare (p : Plan) : List (List Packet) × Session := (p.batches, p.session.settled)

/-- The plans of an operation do not depend on whether the header is owed. -/
def Headless (op : Session → Plan) : Prop :=
  ∀ s t : Session, s.settled = t.settled → (op s).bare = (op t).bare

theorem Headless.andThen {op next : Session → Plan} (h : Headless op) (h' : Headless next) :
    Headless fun s => (op s).andThen next := by
  intro s t hst
  obtain ⟨hbatches, hsession⟩ := Prod.ext_iff.mp (h s t hst)
  obtain ⟨hbatches', hsession'⟩ := Prod.ext_iff.mp (h' _ _ hsession)
  refine Prod.ext ?_ hsession'
  simp only [Plan.bare, Plan.batches_andThen] at hbatches hbatches' ⊢
  rw [hbatches, hbatches']

namespace Session

theorem planNothing_headless : Headless planNothing := fun _ _ h => Prod.ext rfl h

theorem planBatch_headless (packets : List Packet) : Headless (planBatch packets) := by
  intro s t h
  obtain ⟨-, -, hholds, -, -⟩ := settled_eq_iff.mp h
  by_cases hs : s.holdsSink = true
  · rw [planBatch, planBatch, if_pos hs, if_pos (hholds ▸ hs)]
    exact Prod.ext rfl h
  · rw [planBatch, planBatch, if_neg hs, if_neg (hholds ▸ hs)]
    exact planNothing_headless s t h

theorem planBatch_settled (packets : List Packet) (s : Session) :
    (s.planBatch packets).session.settled = s.settled := by
  unfold planBatch
  split <;> rfl

@[simp] theorem planFinish_batches (s : Session) : s.planFinish.batches = [] := by
  unfold planFinish
  split
  · cases howed : s.headerOwed <;> simp [Plan.batches, lastActs, howed, Act.packets]
  · rfl

theorem planFinish_settled (s : Session) : s.planFinish.session.settled = s.settled.ended := by
  unfold planFinish
  split <;> rfl

theorem planFinish_headless : Headless planFinish := by
  intro s t h
  simp only [Plan.bare, planFinish_batches, planFinish_settled, h]

theorem planStart_headless (channel : Channel) : Headless (planStart channel) := by
  intro s t h
  obtain ⟨hoptions, -, hholds, -, hinitiator⟩ := settled_eq_iff.mp h
  have hopened : ∀ c, settled { s with channel := c, phase := .writing } =
      settled { t with channel := c, phase := .writing } :=
    fun c => settled_eq_iff.mpr ⟨hoptions, rfl, hholds, rfl, hinitiator⟩
  cases channel with
  | udp near far => exact planNothing_headless _ _ (hopened _)
  | tcp flow => exact planBatch_headless _ _ _ (hopened _)

theorem planActivate_headless (connection : Option Connection) :
    Headless (planActivate connection) := by
  intro s t h
  obtain ⟨hoptions, hphase, -, -, -⟩ := settled_eq_iff.mp h
  rw [planActivate, planActivate, hphase, hoptions]
  split
  · cases t.options.channel? connection with
    | none => exact planNothing_headless s t h
    | some channel => exact planStart_headless channel s t h
  · exact planNothing_headless s t h

theorem planEnsureActive_headless : Headless planEnsureActive := by
  intro s t h
  obtain ⟨hoptions, hphase, -, -, -⟩ := settled_eq_iff.mp h
  rw [planEnsureActive, planEnsureActive, hphase, hoptions]
  split
  · exact planActivate_headless none s t h
  · exact planNothing_headless s t h

theorem planTcp_headless (d : Direction) (data : ByteArray) (flow : Flow) :
    Headless (planTcp d data flow) := by
  intro s t h
  have hcounted := settled_counted h (some (.tcp (flow.sendAll d (pieces data)).2))
  have hwriting := isWriting_of_phase (settled_eq_iff.mp hcounted).2.1
  unfold planTcp
  dsimp only
  rw [hwriting]
  split
  · exact planBatch_headless _ _ _ hcounted
  · exact planNothing_headless _ _ hcounted

theorem planUdp_headless (d : Direction) (data : ByteArray) (near : Endpoint)
    (far : Option Endpoint) : Headless (planUdp d data near far) := by
  intro s t h
  obtain ⟨-, hphase, -, -, -⟩ := settled_eq_iff.mp h
  unfold planUdp
  rw [isWriting_of_phase hphase]
  split
  · cases far with
    | none => exact planNothing_headless s t h
    | some far => exact planBatch_headless _ s t h
  · exact planNothing_headless s t h

theorem planHeard_headless (d : Direction) (data : ByteArray) : Headless (planHeard d data) := by
  intro s t h
  obtain ⟨hoptions, hphase, -, hchannel, -⟩ := settled_eq_iff.mp h
  rw [planHeard, planHeard, hphase, hchannel, skips, skips, hoptions]
  split
  · exact planNothing_headless s t h
  · rcases t.channel with _ | flow | ⟨near, far⟩
    · exact planNothing_headless s t h
    · exact planTcp_headless d data flow s t h
    · exact planUdp_headless d data near far s t h

theorem planPayload_headless (d : Direction) (data : ByteArray) : Headless (planPayload d data) :=
  planEnsureActive_headless.andThen (planHeard_headless d data)

theorem planDatagram_headless (d : Direction) (data : ByteArray) (peer : SocketAddress) :
    Headless (planDatagram d data peer) := by
  intro s t h
  obtain ⟨-, -, -, hchannel, -⟩ := settled_eq_iff.mp h
  rw [planDatagram, planDatagram, flow?, flow?, hchannel]
  split
  · exact planPayload_headless d data s t h
  · refine planEnsureActive_headless.andThen ?_ s t h
    intro s t h
    obtain ⟨hoptions, hphase, -, hchannel, -⟩ := settled_eq_iff.mp h
    dsimp only
    rw [hphase, hchannel, skips, skips, hoptions]
    split
    · exact planNothing_headless s t h
    · rcases t.channel with _ | flow | ⟨near, far⟩
      · exact planNothing_headless s t h
      · exact planNothing_headless s t h
      · exact planUdp_headless d data near _ s t h

theorem planShutdown_headless (d : Direction) : Headless (planShutdown d) := by
  intro s t h
  obtain ⟨hoptions, hphase, hholds, hchannel, hinitiator⟩ := settled_eq_iff.mp h
  have hflow : s.flow? = t.flow? := by rw [flow?, flow?, hchannel]
  unfold planShutdown
  rw [hinitiator, hflow]
  cases t.initiator with
  | some side => exact planNothing_headless s t h
  | none =>
      cases t.flow? with
      | none => exact planNothing_headless s t h
      | some flow =>
          exact planNothing_headless _ _ (settled_eq_iff.mpr ⟨hoptions, hphase, hholds, hchannel, rfl⟩)

theorem planError_headless : Headless planError := by
  intro s t h
  obtain ⟨-, hphase, -, hchannel, hinitiator⟩ := settled_eq_iff.mp h
  rw [planError, planError, isWriting_of_phase hphase, hphase, hchannel, closeInitiator,
    closeInitiator, hinitiator]
  split
  · exact planNothing_headless s t h
  · cases t.isWriting with
    | false => exact planFinish_headless s t h
    | true =>
        rcases t.channel with _ | flow | ⟨near, far⟩
        · exact planFinish_headless s t h
        · exact (planBatch_headless _).andThen planFinish_headless s t h
        · exact planFinish_headless s t h

theorem planClose_headless : Headless planClose := by
  intro s t h
  obtain ⟨hoptions, hphase, hholds, hchannel, hinitiator⟩ := settled_eq_iff.mp h
  rw [planClose, planClose, isWriting_of_phase hphase, hphase, hchannel, closeInitiator,
    closeInitiator, hinitiator]
  split
  · exact planNothing_headless s t h
  · cases t.isWriting with
    | false => exact planFinish_headless s t h
    | true =>
        rcases t.channel with _ | flow | ⟨near, far⟩
        · exact planFinish_headless s t h
        · exact (planBatch_headless _).andThen planFinish_headless _ _
            (settled_eq_iff.mpr ⟨hoptions, rfl, hholds, rfl, rfl⟩)
        · exact planFinish_headless s t h

/-- **Whether the header is owed changes neither the batches of an event nor what becomes of the
session.** -/
theorem plan_headless (e : Event) : Headless (plan e) := by
  cases e with
  | active connection => exact planActivate_headless connection
  | payload d data => exact planPayload_headless d data
  | datagram d data peer => exact planDatagram_headless d data peer
  | shutdown d => exact planShutdown_headless d
  | error => exact planError_headless
  | close => exact planClose_headless
  | pause =>
      intro s t h
      obtain ⟨-, hphase, -, -, -⟩ := settled_eq_iff.mp h
      change s.planPause.bare = t.planPause.bare
      rw [planPause, planPause, hphase]
      split
      · exact planNothing_headless _ _ (settled_turned h _)
      · exact planNothing_headless s t h
  | resume =>
      intro s t h
      obtain ⟨-, hphase, -, -, -⟩ := settled_eq_iff.mp h
      change s.planResume.bare = t.planResume.bare
      rw [planResume, planResume, hphase]
      split
      · exact planNothing_headless _ _ (settled_turned h _)
      · exact planNothing_headless s t h

end Session

end Wiretap
