import Wiretap.Proofs.Conversation
import Wiretap.Proofs.OwedHeader
import Mathlib.Data.List.Forall2

/-! Pausing only erases. A run is compared with the run that is never told to pause or to resume. While
the first is paused it counts as the other does and writes nothing; otherwise both write the same
batches. Whether the file header is still owed is the one thing in which the sessions may differ before
they are closed, and no plan minds it but for where the header goes. A flow that is closed while paused
does not count its FINs, and that is the difference there is after it. -/

namespace Wiretap

/-- A pause or a resume. -/
def Event.switches : Event → Bool
  | .pause => true
  | .resume => true
  | _ => false

/-- The end of a flow that is closed during a pause: its FINs are neither recorded nor counted. -/
def Event.endsUnheard (e : Event) (s : Session) : Bool :=
  match e with
  | .close => s.phase == .paused && s.flow?.isSome
  | _ => false

namespace Session

/-- The session as it would be if it had not been paused. -/
def roused (s : Session) : Session :=
  { s with phase := if s.phase = .paused then .writing else s.phase }

theorem roused_of_ne {s : Session} (hs : s.phase ≠ .paused) : s.roused = s := by
  rw [roused, if_neg hs]

theorem roused_phase {s : Session} (hs : s.phase = .paused) : s.roused.phase = .writing := if_pos hs

end Session

/-! ### The paused session and the other -/

/-- What a session that may have been paused has in common with one that was told the same but for its
pauses, which is never paused. They part when a flow is closed during a pause: its FINs are not counted. -/
inductive Session.Echoes (s t : Session) : Bool → Prop
  | alike (h : t.settled = s.roused.settled) : Session.Echoes s t false
  | parted (flow : Flow) (hphase : s.phase = .closed) (hchannel : s.channel = some (.tcp flow))
      (h : t.settled = Session.settled { s with channel := some (.tcp (flow.close .client).2) }) :
      Session.Echoes s t true

/-- The plan of a paused session, by the plan of the session that was not paused. -/
structure Plan.Hushed (p q : Plan) (parted : Bool) : Prop where
  batches : p.batches = []
  session : p.session.Echoes q.session parted

namespace Session

variable {s t : Session} {parted : Bool}

theorem Echoes.of_settled {t' : Session} (h : s.Echoes t parted) (ht : t'.settled = t.settled) :
    s.Echoes t' parted := by
  cases h with
  | alike h => exact .alike (ht.trans h)
  | parted flow hphase hchannel h => exact .parted flow hphase hchannel (ht.trans h)

theorem Echoes.batch {packets : List Packet} (h : s.Echoes t parted) :
    s.Echoes (t.planBatch packets).session parted :=
  h.of_settled (planBatch_settled packets t)

theorem echoes_roused (s : Session) : s.Echoes s.roused false := .alike rfl

theorem planFinish_ne_paused (s : Session) : s.planFinish.session.phase ≠ .paused := by
  have hphase : s.planFinish.session.phase = .closed := congrArg Session.phase (planFinish_settled s)
  rw [hphase]
  exact Phase.noConfusion

theorem echoes_finish (h : t.settled.ended = s.settled.ended) :
    s.planFinish.session.Echoes t.planFinish.session false := by
  refine .alike ?_
  rw [roused_of_ne s.planFinish_ne_paused, planFinish_settled, planFinish_settled, h]

theorem planNothing_hushed (s : Session) : s.planNothing.Hushed s.roused.planNothing false :=
  ⟨rfl, s.echoes_roused⟩

theorem planNothing_andThen (next : Session → Plan) (s : Session) :
    s.planNothing.andThen next = next s := rfl

theorem planShutdown_hushed (d : Direction) :
    (s.planShutdown d).Hushed (s.roused.planShutdown d) false := by
  have hinitiator : s.roused.initiator = s.initiator := rfl
  have hflow : s.roused.flow? = s.flow? := rfl
  rw [planShutdown, planShutdown, hinitiator, hflow]
  cases s.initiator with
  | some side => exact planNothing_hushed s
  | none =>
      cases s.flow? with
      | none => exact planNothing_hushed s
      | some flow => exact ⟨rfl, .alike rfl⟩

/-- The closing sequence counts one for either side, whoever opens it. -/
theorem close_counters (flow : Flow) (initiator : Side) :
    (flow.close initiator).2 = (flow.close .client).2 := by
  cases initiator <;> rfl

section Paused

variable (hs : s.phase = .paused)

include hs

theorem ensureActive_paused : s.planEnsureActive = s.planNothing := by
  rw [planEnsureActive, if_neg (by simp [hs])]

theorem ensureActive_roused : s.roused.planEnsureActive = s.roused.planNothing := by
  rw [planEnsureActive, if_neg (by simp [roused_phase hs])]

/-- A payload of the flow is counted and no more. -/
theorem planTcp_hushed (d : Direction) (data : ByteArray) (flow : Flow) :
    (s.planTcp d data flow).Hushed (s.roused.planTcp d data flow) false := by
  rw [planTcp_paused d data hs, planTcp_writing d data (roused_phase hs)]
  exact ⟨rfl, (echoes_roused _).batch⟩

theorem planUdp_hushed (d : Direction) (data : ByteArray) (near : Endpoint) (far : Option Endpoint) :
    (s.planUdp d data near far).Hushed (s.roused.planUdp d data near far) false := by
  have hnothing : s.planUdp d data near far = s.planNothing := by
    unfold planUdp
    rw [if_neg (by simp [isWriting, hs])]
  rw [hnothing]
  refine ⟨rfl, ?_⟩
  unfold planUdp
  split
  · cases far with
    | none => exact s.echoes_roused
    | some far => exact s.echoes_roused.batch
  · exact s.echoes_roused

theorem planHeard_hushed (d : Direction) (data : ByteArray) :
    (s.planHeard d data).Hushed (s.roused.planHeard d data) false := by
  have hchannel : s.roused.channel = s.channel := rfl
  have hskips : s.roused.skips data = s.skips data := rfl
  rw [planHeard, planHeard, hchannel, hskips]
  by_cases hskip : s.skips data = true
  · rw [if_pos (.inr hskip), if_pos (.inr hskip)]
    exact planNothing_hushed s
  · rw [if_neg (by simp [hs, hskip]), if_neg (by simp [roused_phase hs, hskip])]
    rcases s.channel with _ | flow | ⟨near, far⟩
    · exact planNothing_hushed s
    · exact planTcp_hushed hs d data flow
    · exact planUdp_hushed hs d data near far

theorem planPayload_hushed (d : Direction) (data : ByteArray) :
    (s.planPayload d data).Hushed (s.roused.planPayload d data) false := by
  rw [planPayload, planPayload, ensureActive_paused hs, ensureActive_roused hs]
  exact planHeard_hushed hs d data

theorem planDatagram_hushed (d : Direction) (data : ByteArray) (peer : SocketAddress) :
    (s.planDatagram d data peer).Hushed (s.roused.planDatagram d data peer) false := by
  have hchannel : s.roused.channel = s.channel := rfl
  have hflow : s.roused.flow? = s.flow? := rfl
  have hskips : s.roused.skips data = s.skips data := rfl
  unfold planDatagram
  rw [hflow]
  split
  · exact planPayload_hushed hs d data
  · rw [ensureActive_paused hs, ensureActive_roused hs, planNothing_andThen, planNothing_andThen,
      hskips, hchannel]
    by_cases hskip : s.skips data = true
    · rw [if_pos (.inr hskip), if_pos (.inr hskip)]
      exact planNothing_hushed s
    · rw [if_neg (by simp [hs, hskip]), if_neg (by simp [roused_phase hs, hskip])]
      rcases s.channel with _ | flow | ⟨near, far⟩
      · exact planNothing_hushed s
      · exact planNothing_hushed s
      · exact planUdp_hushed hs d data near _

/-- The reset is not recorded. -/
theorem planError_hushed : s.planError.Hushed s.roused.planError false := by
  have hquiet : s.planError = s.planFinish := by simp [planError, isWriting, hs]
  have hchannel : s.roused.channel = s.channel := rfl
  rw [hquiet]
  refine ⟨planFinish_batches s, ?_⟩
  rw [planError, if_neg (by simp [roused_phase hs]), hchannel,
    s.roused.isWriting_iff.mpr (roused_phase hs)]
  rcases s.channel with _ | flow | ⟨near, far⟩
  · exact echoes_finish rfl
  · refine echoes_finish ?_
    rw [planBatch_settled]
    rfl
  · exact echoes_finish rfl

/-- Neither are the FINs, nor are they counted. -/
theorem planClose_hushed : s.planClose.Hushed s.roused.planClose s.flow?.isSome := by
  have hquiet : s.planClose = s.planFinish := by simp [planClose, isWriting, hs]
  have hchannel : s.roused.channel = s.channel := rfl
  rw [hquiet]
  refine ⟨planFinish_batches s, ?_⟩
  rw [planClose, if_neg (by simp [roused_phase hs]), hchannel,
    s.roused.isWriting_iff.mpr (roused_phase hs)]
  rw [flow?]
  rcases hflow : s.channel with _ | flow | ⟨near, far⟩
  · exact echoes_finish rfl
  · have hfinish : s.planFinish.session.settled = s.ended.settled := planFinish_settled s
    refine .parted flow (congrArg Session.phase hfinish)
      ((congrArg Session.channel hfinish).trans hflow) ?_
    refine (planFinish_settled _).trans ?_
    rw [planBatch_settled, settled_counted hfinish, close_counters]
    rfl
  · exact echoes_finish rfl

end Paused

/-- **While paused a session makes no batch, and hears what it would have heard otherwise.** -/
theorem plan_hushed {e : Event} (hs : s.phase = .paused) (he : e.switches = false) :
    (s.plan e).Hushed (s.roused.plan e) (e.endsUnheard s) := by
  cases e with
  | active connection =>
      change (s.planActivate connection).Hushed (s.roused.planActivate connection) false
      rw [planActivate, planActivate, if_neg (by simp [hs]), if_neg (by simp [roused_phase hs])]
      exact planNothing_hushed s
  | payload d data => exact planPayload_hushed hs d data
  | datagram d data peer => exact planDatagram_hushed hs d data peer
  | shutdown d => exact planShutdown_hushed d
  | error => exact planError_hushed hs
  | close =>
      have hends : Event.close.endsUnheard s = s.flow?.isSome := by simp [Event.endsUnheard, hs]
      rw [hends]
      exact planClose_hushed hs
  | pause => cases he
  | resume => cases he

/-! ### One event -/

/-- Only who stopped first is still of interest after the end. -/
theorem plan_closed {s : Session} (hs : s.phase = .closed) (e : Event) :
    s.plan e = s.planNothing ∨ ∃ d, e = .shutdown d := by
  have hawake : s.planEnsureActive = s.planNothing := by
    rw [planEnsureActive, if_neg (by simp [hs])]
  have hheard : ∀ d data, s.planPayload d data = s.planNothing := by
    intro d data
    rw [planPayload, hawake, planNothing_andThen, planHeard, if_pos (by simp [hs])]
  cases e with
  | active connection => exact .inl (if_neg (by simp [hs]))
  | payload d data => exact .inl (hheard d data)
  | datagram d data peer =>
      left
      change s.planDatagram d data peer = s.planNothing
      unfold planDatagram
      split
      · exact hheard d data
      · rw [hawake, planNothing_andThen, if_pos (by simp [hs])]
  | shutdown d => exact .inr ⟨d, rfl⟩
  | error => exact .inl (if_pos hs)
  | pause => exact .inl (if_neg (by simp [hs]))
  | resume => exact .inl (if_neg (by simp [hs]))
  | close => exact .inl (if_pos hs)

theorem planTcp_phase (d : Direction) (data : ByteArray) (flow : Flow) (s : Session) :
    (s.planTcp d data flow).session.phase = s.phase := by
  unfold planTcp
  dsimp only
  split
  · exact planBatch_phase _ _
  · rfl

theorem planUdp_phase (d : Direction) (data : ByteArray) (near : Endpoint) (far : Option Endpoint)
    (s : Session) : (s.planUdp d data near far).session.phase = s.phase := by
  unfold planUdp
  split
  · cases far with
    | none => rfl
    | some far => exact planBatch_phase _ _
  · rfl

theorem planHeard_phase (d : Direction) (data : ByteArray) (s : Session) :
    (s.planHeard d data).session.phase = s.phase := by
  unfold planHeard
  split
  · rfl
  · rcases s.channel with _ | flow | ⟨near, far⟩
    · rfl
    · exact planTcp_phase d data flow s
    · exact planUdp_phase d data near far s

section

variable {s : Session} (hs : s.phase ≠ .paused)

include hs

theorem planActivate_ne_paused (connection : Option Connection) :
    (s.planActivate connection).session.phase ≠ .paused := by
  unfold planActivate
  split
  · cases s.options.channel? connection with
    | none => exact hs
    | some channel => cases channel <;> simp [planStart, planNothing]
  · exact hs

theorem planEnsureActive_ne_paused : s.planEnsureActive.session.phase ≠ .paused := by
  unfold planEnsureActive
  split
  · exact planActivate_ne_paused hs none
  · exact hs

theorem planPayload_ne_paused (d : Direction) (data : ByteArray) :
    (s.planPayload d data).session.phase ≠ .paused := by
  change (planHeard d data s.planEnsureActive.session).session.phase ≠ .paused
  rw [planHeard_phase]
  exact planEnsureActive_ne_paused hs

theorem planDatagram_ne_paused (d : Direction) (data : ByteArray) (peer : SocketAddress) :
    (s.planDatagram d data peer).session.phase ≠ .paused := by
  unfold planDatagram
  split
  · exact planPayload_ne_paused hs d data
  · have hawake := planEnsureActive_ne_paused hs
    dsimp only [Plan.andThen]
    generalize s.planEnsureActive.session = s at hawake ⊢
    split
    · exact hawake
    · rcases s.channel with _ | flow | ⟨near, far⟩
      · exact hawake
      · exact hawake
      · rwa [planUdp_phase]

theorem planShutdown_ne_paused (d : Direction) : (s.planShutdown d).session.phase ≠ .paused := by
  unfold planShutdown
  split <;> exact hs

theorem planError_ne_paused : s.planError.session.phase ≠ .paused := by
  unfold planError
  split
  · exact hs
  · split <;> exact planFinish_ne_paused _

theorem planClose_ne_paused : s.planClose.session.phase ≠ .paused := by
  unfold planClose
  split
  · exact hs
  · split <;> exact planFinish_ne_paused _

/-- Nothing but a pause pauses a session. -/
theorem plan_ne_paused {e : Event} (he : e.switches = false) :
    (s.plan e).session.phase ≠ .paused := by
  cases e with
  | active connection => exact planActivate_ne_paused hs connection
  | payload d data => exact planPayload_ne_paused hs d data
  | datagram d data peer => exact planDatagram_ne_paused hs d data peer
  | shutdown d => exact planShutdown_ne_paused hs d
  | error => exact planError_ne_paused hs
  | close => exact planClose_ne_paused hs
  | pause => cases he
  | resume => cases he

end

theorem planShutdown_batches (d : Direction) (s : Session) : (s.planShutdown d).batches = [] := by
  unfold planShutdown
  split <;> rfl

/-- Whose direction it is does not depend on the counters. -/
theorem sender_close (flow : Flow) (initiator : Side) (d : Direction) :
    (flow.close initiator).2.sender d = flow.sender d := by
  cases initiator <;> rfl

theorem echoes_shutdown_parted {flow : Flow} (hphase : s.phase = .closed)
    (hchannel : s.channel = some (.tcp flow))
    (h : t.settled = settled { s with channel := some (.tcp (flow.close .client).2) })
    (d : Direction) :
    (s.planShutdown d).batches =
        (if s.phase = .paused then [] else (t.planShutdown d).batches) ∧
      (s.planShutdown d).session.Echoes (t.planShutdown d).session true := by
  obtain ⟨hoptions, hphase', hholds, hchannel', hinitiator⟩ := settled_eq_iff.mp h
  rw [planShutdown_batches, planShutdown_batches, ite_self]
  refine ⟨rfl, ?_⟩
  have hflow : s.flow? = some flow := s.flow?_eq_some_iff.mpr hchannel
  have hflow' : t.flow? = some (flow.close .client).2 := t.flow?_eq_some_iff.mpr hchannel'
  have hinitiator' : t.initiator = s.initiator := hinitiator
  unfold planShutdown
  rw [hflow, hflow', hinitiator']
  cases s.initiator with
  | some side => exact .parted flow hphase hchannel h
  | none =>
      dsimp only
      rw [sender_close]
      exact .parted flow hphase hchannel
        (settled_eq_iff.mpr ⟨hoptions, hphase', hholds, hchannel', rfl⟩)

/-- **One event means the same to both sessions, but for the batches that a pause holds back.** -/
theorem Echoes.plan {e : Event} (h : s.Echoes t parted) (he : e.switches = false) :
    (s.plan e).batches = (if s.phase = .paused then [] else (t.plan e).batches) ∧
      (s.plan e).session.Echoes (t.plan e).session (parted || e.endsUnheard s) := by
  cases h with
  | alike h =>
      obtain ⟨hbatches, hsession⟩ := Prod.ext_iff.mp (plan_headless e t s.roused h)
      by_cases hs : s.phase = .paused
      · rw [if_pos hs]
        have hhushed := plan_hushed hs he
        exact ⟨hhushed.batches, hhushed.session.of_settled hsession⟩
      · rw [if_neg hs]
        rw [roused_of_ne hs] at hbatches hsession
        have hheard : e.endsUnheard s = false := by cases e <;> simp [Event.endsUnheard, hs]
        rw [hheard]
        refine ⟨hbatches.symm, .alike ?_⟩
        rw [roused_of_ne (plan_ne_paused hs he)]
        exact hsession
  | parted flow hphase hchannel h =>
      obtain ⟨-, hphase', -, -, -⟩ := settled_eq_iff.mp h
      by_cases hshutdown : ∃ d, e = .shutdown d
      · obtain ⟨d, rfl⟩ := hshutdown
        exact echoes_shutdown_parted hphase hchannel h d
      · rw [(plan_closed hphase e).resolve_right hshutdown,
          (plan_closed (hphase'.trans hphase) e).resolve_right hshutdown, if_neg (by simp [hphase])]
        exact ⟨rfl, .parted flow hphase hchannel h⟩

/-- Nothing comes of a pause or a resume but a change between the two phases. -/
theorem Echoes.switch {e : Event} (h : s.Echoes t parted) (he : e.switches = true) :
    (s.plan e).batches = [] ∧ (s.plan e).session.Echoes t parted := by
  have hclosed : s.phase = .closed → s.plan e = s.planNothing := by
    intro hs
    refine (plan_closed hs e).resolve_right ?_
    rintro ⟨d, rfl⟩
    cases he
  cases h with
  | parted flow hphase hchannel h =>
      rw [hclosed hphase]
      exact ⟨rfl, .parted flow hphase hchannel h⟩
  | alike h =>
      have hturns : (s.plan e).batches = [] ∧ (s.plan e).session.roused = s.roused := by
        cases e with
        | pause =>
            change s.planPause.batches = [] ∧ s.planPause.session.roused = s.roused
            unfold planPause
            split
            · exact ⟨rfl, by simp [planNothing, roused, ‹s.phase = .writing›]⟩
            · exact ⟨rfl, rfl⟩
        | resume =>
            change s.planResume.batches = [] ∧ s.planResume.session.roused = s.roused
            unfold planResume
            split
            · exact ⟨rfl, by simp [planNothing, roused, ‹s.phase = .paused›]⟩
            · exact ⟨rfl, rfl⟩
        | _ => cases he
      exact ⟨hturns.1, .alike (by rw [hturns.2, h])⟩

end Session

/-! ### Runs -/

/-- An event of a run, with the session that it found. -/
structure Turn where
  found : Session
  now : Timestamp
  event : Event

namespace Turn

def batches (t : Turn) : List (List Packet) := (t.found.plan t.event).batches

def timedBatches (t : Turn) : List (Timestamp × List Packet) :=
  (t.found.plan t.event).timedBatches t.now

def endsUnheard (t : Turn) : Bool := t.event.endsUnheard t.found

end Turn

/-- With the FINs of its flow counted. -/
def Channel.finished : Channel → Channel
  | .tcp flow => .tcp (flow.close .client).2
  | channel => channel

namespace Session

/-- The turns of a run, but for its pauses and resumes. -/
def turns {σ : Type} (sink : Sink σ) : List TimedEvent → Session → σ → List Turn
  | [], _, _ => []
  | (now, e) :: rest, s, w =>
    let r := s.handle sink now e w
    (if e.switches then [] else [⟨s, now, e⟩]) ++ turns sink rest r.session r.sink

/-- The second session is as the first would be if it had not been paused. A closed one may have counted
the FINs of its flow where the first has not. -/
structure UpToPauses (s t : Session) : Prop where
  phase : t.phase = if s.phase = .paused then .writing else s.phase
  channel : s.phase ≠ .closed → t.channel = s.channel
  finished : t.channel = s.channel ∨ t.channel = s.channel.map Channel.finished
  initiator : t.initiator = s.initiator

end Session

/-- The turn of a run and that of the run without pauses: the same event finds the same session and makes
the same batches, or none if it finds the session paused. -/
structure Turn.Erases (x y : Turn) : Prop where
  event : x.event = y.event
  found : x.found.UpToPauses y.found
  batches : x.batches = if x.found.phase = .paused then [] else y.batches

namespace Session

variable {s t : Session} {parted : Bool}

theorem Echoes.channel (h : s.Echoes t parted) :
    t.channel = if parted then s.channel.map Channel.finished else s.channel := by
  cases h with
  | alike h => exact (settled_eq_iff.mp h).2.2.2.1
  | parted flow hphase hchannel h =>
      rw [(settled_eq_iff.mp h).2.2.2.1, hchannel]
      rfl

theorem Echoes.upToPauses (h : s.Echoes t parted) : s.UpToPauses t := by
  have hchannel := h.channel
  cases h with
  | alike h =>
      obtain ⟨-, hphase, -, -, hinitiator⟩ := settled_eq_iff.mp h
      exact ⟨hphase, fun _ => hchannel, .inl hchannel, hinitiator⟩
  | parted flow hphase _ h =>
      obtain ⟨-, hphase', -, -, hinitiator⟩ := settled_eq_iff.mp h
      refine ⟨?_, fun hopen => absurd hphase hopen, .inr hchannel, hinitiator⟩
      rw [hphase, if_neg Phase.noConfusion]
      exact hphase'.trans hphase

theorem UpToPauses.closed_iff (h : s.UpToPauses t) : s.phase = .closed ↔ t.phase = .closed := by
  rw [h.phase]
  split
  · simp [‹s.phase = .paused›]
  · rfl

theorem turns_recording (now : Timestamp) (e : Event) (rest : List TimedEvent) (s : Session)
    (log : List SinkCall) :
    s.turns Sink.recording ((now, e) :: rest) log =
      (if e.switches then [] else [⟨s, now, e⟩]) ++
        (s.plan e).session.turns Sink.recording rest (((s.plan e).calls now).reverse ++ log) := by
  obtain ⟨-, hsession, hsink⟩ := handle_recording now e s log
  rw [turns, hsession, hsink]

/-- **The run without pauses, turn by turn.** -/
theorem turns_erased (events : List TimedEvent) {steady : List TimedEvent}
    (hsame : steady.map Prod.snd = (events.map Prod.snd).filter fun e => !e.switches)
    (h : s.Echoes t parted) (log log' : List SinkCall) :
    List.Forall₂ Turn.Erases (s.turns Sink.recording events log)
        (t.turns Sink.recording steady log') ∧
      (s.planAll (events.map Prod.snd)).session.Echoes
        (t.planAll (steady.map Prod.snd)).session
        (parted || (s.turns Sink.recording events log).any Turn.endsUnheard) := by
  induction events generalizing s t parted steady log log' with
  | nil =>
      have hnone : steady = [] := List.map_eq_nil_iff.mp hsame
      rw [hnone]
      exact ⟨.nil, by rwa [turns, List.any_nil, Bool.or_false]⟩
  | cons x rest ih =>
      obtain ⟨now, e⟩ := x
      rw [turns_recording]
      rw [List.map_cons, List.filter_cons] at hsame
      cases he : e.switches with
      | true =>
          rw [if_pos rfl, List.nil_append]
          simp only [he, Bool.not_true, Bool.false_eq_true, if_false] at hsame
          exact ih hsame (h.switch he).2 _ log'
      | false =>
          rw [if_neg Bool.false_ne_true, List.any_append, ← Bool.or_assoc]
          simp only [he, Bool.not_false, if_true] at hsame
          obtain ⟨⟨now', e'⟩, steady, rfl, rfl, hrest⟩ := List.map_eq_cons_iff.mp hsame
          obtain ⟨hbatches, hafter⟩ := h.plan he
          obtain ⟨hturns, hend⟩ := ih hrest hafter (((s.plan e').calls now).reverse ++ log)
            (((t.plan e').calls now').reverse ++ log')
          rw [turns_recording, he, if_neg Bool.false_ne_true]
          refine ⟨.cons ⟨rfl, h.upToPauses, hbatches⟩ hturns, ?_⟩
          rwa [List.any_cons, List.any_nil, Bool.or_false]

theorem switch_batches {e : Event} (he : e.switches = true) : (s.plan e).batches = [] :=
  ((echoes_roused s).switch he).1

theorem timedBatches_turns (events : List TimedEvent) (s : Session) (log : List SinkCall) :
    s.timedBatches events = (s.turns Sink.recording events log).flatMap Turn.timedBatches := by
  induction events generalizing s log with
  | nil => rfl
  | cons x rest ih =>
      obtain ⟨now, e⟩ := x
      rw [turns_recording, List.flatMap_append, ← ih, timedBatches]
      cases he : e.switches with
      | true => rw [Plan.timedBatches, switch_batches he]; rfl
      | false => rw [if_neg Bool.false_ne_true, List.flatMap_singleton]; rfl

theorem recording_closes (options : Options) (events : List TimedEvent) :
    let course := (create options).run Sink.recording events []
    course.sink.count .close = if course.session.phase == .closed && !options.shared then 1 else 0 := by
  dsimp only
  rw [← List.count_reverse, run_calls, captureCalls_closes]

/-- **Pausing only erases.** A run and the run that is told the same but for pauses and resumes, at times
of its own, agree turn by turn in what they find, and in the batches but for those of a paused session.
What either makes of its sink follows from its batches. -/
theorem pausing_only_erases (options : Options) {events steady : List TimedEvent}
    (hsame : steady.map Prod.snd = (events.map Prod.snd).filter fun e => !e.switches) :
    let paused := (create options).run Sink.recording events []
    let free := (create options).run Sink.recording steady []
    let heard := (create options).turns Sink.recording events []
    let all := (create options).turns Sink.recording steady []
    List.Forall₂ Turn.Erases heard all ∧
      paused.session.UpToPauses free.session ∧
      free.session.channel = (if heard.any Turn.endsUnheard
        then paused.session.channel.map Channel.finished else paused.session.channel) ∧
      paused.sink.reverse = captureCalls (!options.shared && options.fileHeader)
        (paused.session.phase == .closed && !options.shared) (heard.flatMap Turn.timedBatches) ∧
      free.sink.reverse = captureCalls (!options.shared && options.fileHeader)
        (free.session.phase == .closed && !options.shared) (all.flatMap Turn.timedBatches) ∧
      paused.sink.count .close = free.sink.count .close := by
  have hstart : (create options).Echoes (create options) false := .alike rfl
  obtain ⟨hturns, hend⟩ := turns_erased events hsame hstart [] []
  have hfree := run_recording steady (create options) []
  have hpaused := run_recording events (create options) []
  dsimp only
  refine ⟨hturns, ?_, ?_, ?_, ?_, ?_⟩
  · rw [hfree, hpaused]
    exact hend.upToPauses
  · rw [hfree, hpaused]
    exact hend.channel
  · rw [run_calls, timedBatches_turns events _ []]
  · rw [run_calls, timedBatches_turns steady _ []]
  · have hclosed := hend.upToPauses.closed_iff
    rw [recording_closes, recording_closes, hfree, hpaused]
    simp only [Bool.and_eq_true, beq_iff_eq, hclosed]

/-- The conversation of a server that is closed during a pause. -/
def pausedTalk : List TimedEvent := servingTalk ++ [(.epoch, .pause), (.epoch, .close)]

def steadyTalk : List TimedEvent :=
  [.payload .inbound ⟨#[97, 98]⟩, .payload .inbound ⟨#[99, 100, 101]⟩, .shutdown .inbound,
    .payload .outbound ⟨#[102]⟩, .close].map fun e => (.epoch, e)

theorem pausing_only_erases_serving :
    let paused := (create servingOptions).run Sink.recording pausedTalk []
    let free := (create servingOptions).run Sink.recording steadyTalk []
    steadyTalk.map Prod.snd = ((pausedTalk.map Prod.snd).filter fun e => !e.switches) ∧
      List.Forall₂ Turn.Erases ((create servingOptions).turns Sink.recording pausedTalk [])
        ((create servingOptions).turns Sink.recording steadyTalk []) ∧
      free.session.channel = paused.session.channel.map Channel.finished ∧
      paused.session.flow?.map Flow.clientSeq = some 6 ∧
      paused.sink.count .close = free.sink.count .close := by
  have hsame : steadyTalk.map Prod.snd =
      ((pausedTalk.map Prod.snd).filter fun e => !e.switches) := rfl
  obtain ⟨hturns, -, hchannel, -, -, hcloses⟩ := pausing_only_erases servingOptions hsame
  exact ⟨hsame, hturns, hchannel.trans (if_pos rfl), rfl, hcloses⟩

end Session

end Wiretap
