import Wiretap.Proofs.Delivery
import Wiretap.Proofs.Interruption

/-! How the capture of a relay ends. Whatever its streams, its schedule and its sink do short of a panic,
the session is closed in the end, has let its sink go and has closed a sink of its own once. What a TCP
connection's file says of the end is true: the closing sequence if both streams were read to their ends,
opened by the side that ended first, and a reset if a stream failed. The two exclude each other, since a
pump that has read the end of its stream cannot fail any more, and the first failure is kept. -/

namespace Wiretap

/-- How often a trace has a close. -/
def closes (trace : List Answer) : Nat := (trace.map Prod.fst).count .close

/-! ### The session -/

namespace Session

theorem planAll_ends (events : List TimedEvent) (later : Timestamp) {e : Event}
    (he : e = .close ∨ e = .error) (s : Session) :
    (s.planAll ((events ++ [(later, e)]).map Prod.snd)).session.phase = .closed := by
  rw [List.map_append, planAll_append]
  exact plan_ends _ he

/-- A closed session has meant to close a sink of its own once, and a shared one not at all. -/
theorem intended_closes {events : List TimedEvent} (options : Options)
    (hphase : ((create options).planAll (events.map Prod.snd)).session.phase = .closed) :
    ((create options).intended events).count .close = if options.shared then 0 else 1 := by
  cases hshared : options.shared with
  | true => exact List.count_eq_zero.mpr (intended_unclosed events options (.inl hshared))
  | false =>
      obtain ⟨-, before, hsplit, hbefore⟩ := intended_closed events options hshared hphase
      rw [hsplit, List.count_append, List.count_eq_zero.mpr hbefore]
      rfl

/-- The close of a sink of the session's own is the last call that is meant. -/
theorem intended_closes_last {events : List TimedEvent} {options : Options}
    (hshared : options.shared = false)
    (hphase : ((create options).planAll (events.map Prod.snd)).session.phase = .closed)
    {before rest : List SinkCall} {c : SinkCall}
    (hsplit : (create options).intended events = before ++ c :: rest) (hc : c ≠ .close) :
    .close ∈ rest := by
  obtain ⟨-, first, hlast, -⟩ := intended_closed events options hshared hphase
  rw [hsplit] at hlast
  rcases List.eq_nil_or_concat rest with rfl | ⟨rest, c', rfl⟩
  · exact absurd (List.head_eq_of_cons_eq (List.append_inj' hlast rfl).2) hc
  · rw [List.concat_eq_append] at hlast ⊢
    rw [← List.cons_append, ← List.append_assoc] at hlast
    rw [(List.append_inj' hlast rfl).2]
    exact List.mem_append_right rest List.mem_cons_self

variable {σ : Type} {sink : Sink σ} {w : σ}

theorem closes_append (trace more : List Answer) :
    closes (trace ++ more) = closes trace + closes more := by
  rw [closes, List.map_append, List.count_append]
  rfl

theorem closes_successes (calls : List SinkCall) : closes (successes calls) = calls.count .close := by
  rw [closes, ← List.count_reverse, ← List.map_reverse, successes_calls]

/-- After a failure a sink of the session's own is closed, unless it was its close that failed. -/
theorem closes_lastWords {shared : Bool} {c : SinkCall} {last : List Answer}
    (h : Sink.LastWords shared c last) :
    closes last = if shared = false ∧ c ≠ .close then 1 else 0 := by
  unfold Sink.LastWords at h
  split at h
  · obtain ⟨o, rfl⟩ := h
    rw [if_pos ‹_›]
    rfl
  · rw [h, if_neg ‹_›]
    rfl

/-- The closes of a run that a failure stops. -/
theorem closes_stopped {events : List TimedEvent} {options : Options}
    (hphase : ((create options).planAll (events.map Prod.snd)).session.phase = .closed)
    {before rest : List SinkCall} {c : SinkCall} {last : List Answer} (o : Outcome)
    (hsplit : (create options).intended events = before ++ c :: rest)
    (hlast : Sink.LastWords options.shared c last) :
    closes (last ++ (c, o) :: successes before) = if options.shared then 0 else 1 := by
  have hmeant := intended_closes options hphase
  have htotal : closes (last ++ (c, o) :: successes before) =
      closes last + (before ++ [c]).count .close := by
    rw [closes_append, ← List.singleton_append, closes_append, closes_successes, List.count_append,
      Nat.add_comm (before.count _)]
    rfl
  rw [hsplit, List.append_cons, List.count_append] at hmeant
  rw [htotal, closes_lastWords hlast]
  cases hshared : options.shared with
  | true =>
      rw [hshared, if_pos rfl] at hmeant
      rw [if_neg (by simp), if_pos rfl]
      omega
  | false =>
      rw [hshared, if_neg Bool.false_ne_true] at hmeant
      rw [if_neg Bool.false_ne_true]
      by_cases hc : c = .close
      · have hcounted : 0 < (before ++ [c]).count .close := by
          rw [List.count_pos_iff, hc]
          exact List.mem_append_right before List.mem_cons_self
        rw [if_neg fun h => h.2 hc]
        omega
      · -- an earlier call failed, and the close that was meant had not come yet
        have hrest : 0 < rest.count .close :=
          List.count_pos_iff.mpr (intended_closes_last hshared hphase hsplit hc)
        rw [if_pos ⟨rfl, hc⟩]
        omega

/-- **However a run ends, it ends well.** A session that is closed or told of a failure is closed
afterwards, holds no sink, and has closed a sink of its own once. -/
theorem run_ends (hcalm : sink.Calm w) (options : Options) (events : List TimedEvent)
    (later : Timestamp) {e : Event} (he : e = .close ∨ e = .error) :
    let course := (create options).run sink.traced (events ++ [(later, e)]) (w, [])
    course.session.phase = .closed ∧ course.session.holdsSink = false ∧
      closes course.sink.2 = if options.shared then 0 else 1 := by
  have hphase := planAll_ends events later he (create options)
  dsimp only
  rcases run_completes_or_stops (events ++ [(later, e)]) (create options) (hcalm.traced []) with
    hcompletes | hstops
  · have htrace := completes_trace hcompletes
    have hpath := planAll_path ((events ++ [(later, e)]).map Prod.snd) (create options)
    obtain ⟨w', -, hcourse⟩ := hcompletes
    refine ⟨by rw [hcourse]; exact hphase, ?_, ?_⟩
    · rw [hcourse, ← Bool.not_eq_true]
      exact fun hheld => (hpath.holds (create_holds options)).mp hheld hphase
    · rw [htrace, closes_successes, intended_closes options hphase]
  · obtain ⟨-, -, -, -, before, c, error, rest, last, -, hsplit, hlast, htrace, -, -⟩ :=
      stops_trace hstops
    obtain ⟨-, -, -, -, -, -, -, -, -, -, hclosed, hreleased⟩ := hstops
    refine ⟨hclosed, hreleased, ?_⟩
    rw [htrace]
    exact closes_stopped hphase _ hsplit hlast

end Session

/-! ### The pumps -/

/-- A read or a write of a direction failed. A write that accepts nothing is a failure. -/
def Direction.failed (d : Direction) (traffic : List Traffic) : Bool :=
  traffic.any fun x =>
    match x with
    | .readFailed s => s = d.source
    | .sendFailed s => s = d.target
    | .sent s bytes => s = d.target && bytes.isEmpty
    | _ => false

@[simp] theorem Direction.failed_append (d : Direction) (traffic more : List Traffic) :
    d.failed (traffic ++ more) = (d.failed traffic || d.failed more) :=
  List.any_append

/-- The direction whose source ended first. -/
def firstEnded? (reads : List (Stream × ByteArray)) : Option Direction :=
  (reads.find? fun x => x.2.isEmpty).map fun x => x.1.direction

/-- What a pump is at, by whether its source has ended, whether it has failed, and whether the relay
knows of a failure. A pump that has failed did not come to an end before, and does not afterwards. -/
def Pump.Fate (ended failed failure : Bool) : Pump → Prop
  | reading => ended = false ∧ failed = false
  | sending _ => ended = false ∧ failed = false
  | .ended => failed = false
  | .failed _ => ended = false ∧ failed = true
  | gone => failed = true → ended = false ∧ failure = true

namespace Pump

variable {d : Direction} {p q : Pump} {reads : List (Stream × ByteArray)} {traffic : List Traffic}
  {ended failed failure : Bool}

theorem Step.fate (h : Step False d p reads traffic q) (hp : p.Fate ended failed failure) :
    q.Fate (ended || d.ended reads) (failed || d.failed traffic) failure := by
  have hnone : d.ended [] = false := rfl
  cases h with
  | takes data hsome =>
      obtain ⟨hended, hfailed⟩ := hp
      exact ⟨by simp [hended, hsome], by simp [hfailed, Direction.failed]⟩
  | breaks data hsome hpanic => exact hpanic.elim
  | ends data hempty =>
      obtain ⟨hended, hfailed⟩ := hp
      change (failed || d.failed _) = false
      simp [hfailed, Direction.failed]
  | readFails e =>
      obtain ⟨hended, hfailed⟩ := hp
      exact ⟨by simp [hended, hnone], by simp [Direction.failed]⟩
  | sends rest n hsome =>
      obtain ⟨hended, hfailed⟩ := hp
      have hgood : (ended || d.ended []) = false ∧
          (failed || d.failed [.sent d.target (rest.extract 0 n)]) = false :=
        ⟨by simp [hended, hnone], by simp [hfailed, Direction.failed, hsome]⟩
      split <;> exact hgood
  | stalls rest n hempty =>
      obtain ⟨hended, hfailed⟩ := hp
      exact ⟨by simp [hended, hnone], by simp [Direction.failed, hempty]⟩
  | sendFails rest e =>
      obtain ⟨hended, hfailed⟩ := hp
      exact ⟨by simp [hended, hnone], by simp [Direction.failed]⟩

/-- A step of a pump is no failure of the other. -/
theorem Step.other_failed (h : Step False d p reads traffic q) {d' : Direction} (hd : d' ≠ d) :
    d'.failed traffic = false := by
  cases h <;> simp [Direction.failed, Direction.source_eq_iff, Direction.target_eq_iff, hd.symm]

/-- The first failure is known from now on. -/
theorem Fate.of_failure (h : p.Fate ended failed failure) : p.Fate ended failed true := by
  cases p with
  | gone => exact fun hfailed => ⟨(h hfailed).1, rfl⟩
  | _ => exact h

/-- A running pump is stopped: it has not failed. -/
theorem Fate.stop (h : p.Fate ended failed failure) (hrunning : p.isRunning = true) :
    Pump.gone.Fate ended failed true := by
  intro hfailed
  cases p with
  | reading => exact absurd (hfailed.symm.trans h.2) (by decide)
  | sending rest => exact absurd (hfailed.symm.trans h.2) (by decide)
  | _ => cases hrunning

theorem Fate.gone {e : IoError} (h : (Pump.failed e).Fate ended failed failure) :
    Pump.gone.Fate ended failed true :=
  fun _ => ⟨h.1, rfl⟩

end Pump

/-- What the pumps of a relay are at is what the streams saw of them, and the failure that the relay knows
of is one of theirs. -/
structure Wire.Fates (x : Wire) (reads : List (Stream × ByteArray)) (traffic : List Traffic) : Prop where
  pumps : ∀ d, (x.pump d).Fate (d.ended reads) (d.failed traffic) x.failure.isSome
  cause : x.failure.isSome = true → ∃ d, x.pump d = .gone ∧ d.failed traffic = true

namespace Wire

variable {x y : Wire} {reads taken : List (Stream × ByteArray)} {traffic seen : List Traffic}

theorem gone_setPump_gone {d d' : Direction} (h : x.pump d = .gone) :
    (x.setPump .gone d').pump d = .gone := by
  by_cases hd : d = d'
  · rw [hd, pump_setPump]
  · rw [pump_setPump_other _ _ hd, h]

/-- **A move of a relay whose capture does not panic keeps the account of its failures.** -/
theorem Turn.fates (h : x.Turn False taken seen y) (hx : x.Fates reads traffic) :
    y.Fates (reads ++ taken) (traffic ++ seen) := by
  cases h with
  | stays =>
      rw [List.append_nil, List.append_nil]
      exact hx
  | pumps d' hstep =>
      refine ⟨fun d => ?_, fun hfailure => ?_⟩
      · have hfate := hx.pumps d
        rw [failure_setPump, Direction.ended_append, Direction.failed_append]
        by_cases hd : d = d'
        · subst hd
          rw [pump_setPump]
          exact hstep.fate hfate
        · rw [pump_setPump_other _ _ hd, (hstep.other hd).2.1, hstep.other_failed hd, Bool.or_false,
            Bool.or_false]
          exact hfate
      · rw [failure_setPump] at hfailure
        obtain ⟨d, hgone, hfailed⟩ := hx.cause hfailure
        have hd : d ≠ d' := by
          rintro rfl
          have hrunning := hstep.isRunning
          rw [hgone] at hrunning
          cases hrunning
        refine ⟨d, ?_, by rw [Direction.failed_append, hfailed, Bool.true_or]⟩
        rw [pump_setPump_other _ _ hd]
        exact hgone
  | joins d' hpump =>
      rw [List.append_nil, List.append_nil]
      refine ⟨fun d => ?_, fun hfailure => ?_⟩
      · have hfate := hx.pumps d
        rw [failure_setPump]
        by_cases hd : d = d'
        · subst hd
          rw [hpump] at hfate
          rw [pump_setPump]
          exact fun hfailed => absurd (hfailed.symm.trans hfate) (by decide)
        · rwa [pump_setPump_other _ _ hd]
      · rw [failure_setPump] at hfailure
        obtain ⟨d, hgone, hfailed⟩ := hx.cause hfailure
        exact ⟨d, gone_setPump_gone hgone, hfailed⟩
  | fails d' e hpump hfirst =>
      rw [List.append_nil, List.append_nil]
      -- the failure that the relay keeps is this pump's own
      have hcause := hx.pumps d'
      rw [hpump] at hcause
      refine ⟨fun d => ?_, fun _ => ⟨d', ?_, hcause.2⟩⟩
      · have hfate := hx.pumps d
        rw [failure_stop]
        rcases x.pump_fails e d' d with ⟨hd, hgone⟩ | ⟨-, hsame | ⟨hrunning, hgone⟩⟩
        · rw [hd, hpump] at hfate
          rw [hgone, hd]
          exact hfate.gone
        · rw [hsame]
          exact hfate.of_failure
        · rw [hgone]
          exact hfate.stop hrunning
      · rcases x.pump_fails e d' d' with ⟨-, hgone⟩ | ⟨hd, -⟩
        · exact hgone
        · exact absurd rfl hd
  | failsLater d' e hpump hlater =>
      rw [List.append_nil, List.append_nil]
      refine ⟨fun d => ?_, fun hfailure => ?_⟩
      · have hfate := hx.pumps d
        rw [failure_setPump, hlater]
        rw [hlater] at hfate
        by_cases hd : d = d'
        · subst hd
          rw [hpump] at hfate
          rw [pump_setPump]
          exact hfate.gone
        · rwa [pump_setPump_other _ _ hd]
      · obtain ⟨d, hgone, hfailed⟩ := hx.cause hlater
        exact ⟨d, gone_setPump_gone hgone, hfailed⟩

/-- A relay that is over knows of a failure if there was one, and then one stream was not read to its
end. -/
theorem Fates.known (h : x.Fates reads traffic) (hover : ∀ d, x.pump d = .gone) :
    (x.failure.isSome = true ↔ ∃ d : Direction, d.failed traffic = true) ∧
      (x.failure.isSome = true → ∃ d : Direction, d.ended reads = false) := by
  have hpump : ∀ d : Direction, d.failed traffic = true → d.ended reads = false ∧ x.failure.isSome = true := by
    intro d
    have hfate := h.pumps d
    rw [hover d] at hfate
    exact hfate
  refine ⟨⟨fun hfailure => ?_, ?_⟩, fun hfailure => ?_⟩
  · obtain ⟨d, -, hfailed⟩ := h.cause hfailure
    exact ⟨d, hfailed⟩
  · rintro ⟨d, hfailed⟩
    exact (hpump d hfailed).2
  · obtain ⟨d, -, hfailed⟩ := h.cause hfailure
    exact ⟨d, (hpump d hfailed).1⟩

end Wire

/-! ### The first to stop -/

theorem firstEnded?_append (reads more : List (Stream × ByteArray)) :
    firstEnded? (reads ++ more) = (firstEnded? reads).or (firstEnded? more) := by
  rw [firstEnded?, List.find?_append, Option.map_or]
  rfl

/-- The first to stop, as far as the session can tell, is the side whose stream ended first. -/
theorem firstToStop?_ofRead (flow : Flow) (reads : List (Stream × ByteArray)) :
    firstToStop? flow (reads.map Event.ofRead) = (firstEnded? reads).map flow.sender := by
  induction reads with
  | nil => rfl
  | cons x reads ih =>
      have hread : firstToStop? flow [Event.ofRead x] = (firstEnded? [x]).map flow.sender := by
        unfold Event.ofRead
        split
        · simp [firstToStop?, firstEnded?, ‹_›]
        · simp [firstToStop?, firstEnded?, ‹_›]
      rw [List.map_cons, ← List.singleton_append, firstToStop?_append, hread, ih, ← Option.map_or,
        ← firstEnded?_append]
      rfl

theorem Relay.firstToStop?_tells {σ : Type} (flow : Flow) (r : Relay σ) (m : Move) :
    firstToStop? flow (r.tells m) = (firstEnded? (r.bytesTaken m)).map flow.sender := by
  have hrequests : firstToStop? flow m.requests = none := by cases m <;> rfl
  rw [tells, firstToStop?_append, hrequests, Option.or_none, firstToStop?_ofRead]

theorem Relay.tells_talk {σ : Type} (r : Relay σ) {m : Move} (hm : m ≠ .close) :
    ∀ e ∈ r.tells m, e.isTalk = true := by
  intro e he
  rcases r.tells_cases he with ⟨x, rfl⟩ | ⟨-, rfl⟩ | ⟨-, rfl⟩ | ⟨hclose, -⟩
  · exact (Event.isTalk_ofRead x).1
  · rfl
  · rfl
  · exact absurd hclose hm

namespace Passage

variable {σ : Type} {sink : Sink σ} {w : σ}

theorem follow_fates (hcalm : sink.Calm w) (now : Timestamp) (connection : Connection)
    (session : Session) (moves : List TimedMove) :
    let p := (start sink now connection session w).follow sink moves
    p.relay.wire.Fates p.reads p.traffic := by
  let P (p : Passage σ) : Prop := sink.Calm p.relay.sink ∧ p.relay.wire.Fates p.reads p.traffic
  suffices h : P ((start sink now connection session w).follow sink moves) from h.2
  refine follow_keeps (P := P) ?_ ⟨(Session.handle_calm now _ session hcalm).2, ?_⟩
  · rintro p x - ⟨hcalm, hfates⟩
    have hturn := @Relay.step_turn σ sink x.1 x.2 p.relay
    have hnever : sink.CanPanic p.relay.sink = False := eq_false hcalm
    rw [hnever] at hturn
    exact ⟨Relay.step_calm x.1 x.2 hcalm, hturn.fates hfates⟩
  · refine ⟨fun d => ?_, fun hfailure => by cases hfailure⟩
    cases d <;> exact ⟨rfl, rfl⟩

theorem follow_firstToStop (flow : Flow) (now : Timestamp) (connection : Connection)
    (session : Session) (moves : List TimedMove) :
    let p := (start sink now connection session w).follow sink moves
    firstToStop? flow (p.told.map Prod.snd) = (firstEnded? p.reads).map flow.sender := by
  let P (p : Passage σ) : Prop :=
    firstToStop? flow (p.told.map Prod.snd) = (firstEnded? p.reads).map flow.sender
  change P _
  refine follow_keeps (P := P) ?_ rfl
  intro p x _ hp
  change firstToStop? flow ((p.step sink x).told.map Prod.snd) =
    (firstEnded? (p.reads ++ p.relay.bytesTaken x.2)).map flow.sender
  rw [step_told, firstToStop?_append, hp, Relay.firstToStop?_tells, firstEnded?_append,
    Option.map_or]

end Passage

/-! ### The end of a relay -/

/-- What a session is told at the end of its relay. -/
def Relay.lastEvent {σ : Type} (r : Relay σ) : Event :=
  if r.failure.isSome then .error else .close

theorem Relay.lastEvent_ends {σ : Type} (r : Relay σ) : r.lastEvent = .close ∨ r.lastEvent = .error := by
  unfold lastEvent
  split
  · exact .inr rfl
  · exact .inl rfl

theorem Relay.finish_capture {σ : Type} (sink : Sink σ) (later : Timestamp) (r : Relay σ) :
    (r.finish sink later).2.relay.session =
        (r.session.handle sink later r.lastEvent r.sink).session ∧
      (r.finish sink later).2.relay.sink =
        (r.session.handle sink later r.lastEvent r.sink).sink := by
  unfold finish lastEvent
  cases r.failure <;> exact ⟨rfl, rfl⟩

/-- A segment that ends a flow or breaks it off. -/
def Packet.isParting : Packet → Bool
  | .tcp _ _ _ _ flags _ => flags.contains .fin || flags.contains .rst
  | .udp _ _ _ => false

theorem conversation_not_parting (flow : Flow) (sent : List Transfer) :
    ∀ packet ∈ barePackets flow.handshake.1 ++ sent.flatMap (Transfer.packets flow),
      packet.isParting = false := by
  have hsyn : (TcpFlags.syn.contains .fin || TcpFlags.syn.contains .rst) = false := by decide
  have hsynAck : (TcpFlags.synAck.contains .fin || TcpFlags.synAck.contains .rst) = false := by decide
  have hack : (TcpFlags.ack.contains .fin || TcpFlags.ack.contains .rst) = false := by decide
  intro packet hpacket
  rcases List.mem_append.mp hpacket with hopening | hdata
  · simp only [barePackets, Flow.handshake, List.map_cons, List.map_nil, List.mem_cons,
      List.not_mem_nil, or_false] at hopening
    rcases hopening with rfl | rfl | rfl
    · exact hsyn
    · exact hsynAck
    · exact hack
  · obtain ⟨t, -, ht⟩ := List.mem_flatMap.mp hdata
    simp only [Transfer.packets, List.mem_cons, List.not_mem_nil, or_false] at ht
    rcases ht with rfl | rfl <;> exact hack

namespace Passage

variable {σ : Type} {sink : Sink σ} {w : σ}

theorem finish_run (now later : Timestamp) (connection : Connection) (session : Session) (w : σ)
    (moves : List TimedMove) :
    let p := (start sink now connection session w).follow sink moves
    let ended := (p.relay.finish sink later).2.relay
    let course := session.run sink
      ((now, .active (some connection)) :: p.told ++ [(later, p.relay.lastEvent)]) w
    ended.session = course.session ∧ ended.sink = course.sink := by
  intro p ended course
  obtain ⟨hsession, hsink⟩ := @follow_capture _ sink now connection session w moves
  have hcourse : course = _ := Session.run_append sink _ _ session w
  have hfinish := p.relay.finish_capture sink later
  rw [hsession, hsink] at hfinish
  rw [hcourse]
  exact hfinish

/-- How the capture of a TCP connection ends, when its relay is over. -/
inductive Parts (flow : Flow) (p : Passage σ) : List Packet → Prop
  /-- Both streams were read to their ends: the side that ended first opens the closing sequence. -/
  | closed (d : Direction) (hfirst : firstEnded? p.reads = some d)
      (hended : ∀ d : Direction, d.ended p.reads = true)
      (hfailed : ∀ d : Direction, d.failed p.traffic = false) :
      Parts flow p
        [parting flow (p.told.map Prod.snd) .finAck (flow.sender d) 1,
          parting flow (p.told.map Prod.snd) .finAck (flow.sender d).opposite 1,
          parting flow (p.told.map Prod.snd) .ack (flow.sender d) 2]
  /-- A stream failed: a reset comes from the side that ended, or from the client if none did. -/
  | reset (hended : ∃ d : Direction, d.ended p.reads = false)
      (hfailed : ∃ d : Direction, d.failed p.traffic = true) :
      Parts flow p
        [parting flow (p.told.map Prod.snd) .rstAck
          (((firstEnded? p.reads).map flow.sender).getD .client) 1]

theorem firstEnded?_of_ended {reads : List (Stream × ByteArray)} {d : Direction}
    (h : d.ended reads = true) : ∃ d', firstEnded? reads = some d' := by
  obtain ⟨x, hx, hended⟩ := List.any_eq_true.mp h
  have hsome : (reads.find? fun x => x.2.isEmpty).isSome = true :=
    List.find?_isSome.mpr ⟨x, hx, (Bool.and_eq_true_iff.mp hended).2⟩
  obtain ⟨y, hy⟩ := Option.isSome_iff_exists.mp hsome
  exact ⟨_, by rw [firstEnded?, hy]; rfl⟩

/-- What is recorded last when a relay is over that is not paused. -/
theorem farewell_parts (hcalm : sink.Calm w) (flow : Flow) (now : Timestamp) (connection : Connection)
    (session : Session) (moves : List TimedMove) :
    let p := (start sink now connection session w).follow sink moves
    p.relay.isOver = true → paused (p.told.map Prod.snd) = false →
      p.Parts flow (farewell flow (p.told.map Prod.snd) p.relay.failure.isSome) := by
  intro p hover hpaused
  have hfates : p.relay.wire.Fates p.reads p.traffic := follow_fates hcalm now connection session moves
  have hgone : ∀ d, p.relay.wire.pump d = .gone := by
    intro d
    rw [Relay.wire_pump, Relay.pump_of_isOver hover]
  obtain ⟨hknown, hopen⟩ := hfates.known hgone
  have hfirst : firstToStop? flow (p.told.map Prod.snd) = (firstEnded? p.reads).map flow.sender :=
    follow_firstToStop flow now connection session moves
  rw [farewell, hpaused, if_neg Bool.false_ne_true, hfirst]
  cases hfailure : p.relay.failure with
  | none =>
      have hfailed : ∀ d : Direction, d.failed p.traffic = false := by
        intro d
        rw [← Bool.not_eq_true]
        intro hd
        have hsome := hknown.mpr ⟨d, hd⟩
        rw [Relay.wire, hfailure] at hsome
        cases hsome
      have hended : ∀ d : Direction, d.ended p.reads = true := by
        intro d
        have hledger : p.Ledger d := follow_ledger now connection session w moves d
        exact hledger.delivers.finishes hover hfailure
      obtain ⟨d, hd⟩ := firstEnded?_of_ended (hended .inbound)
      rw [hd]
      exact .closed d hd hended hfailed
  | some e =>
      have hsome : p.relay.wire.failure.isSome = true := by
        rw [Relay.wire, hfailure]
        rfl
      exact .reset (hopen hsome) (hknown.mp hsome)

/-- **A relay ends its capture, and ends it truthfully.** Whatever comes about in which order, and
whatever the sink answers short of a panic, the session is closed when the relay has finished, has let its
sink go, and has closed a sink of its own once. The file of a TCP connection that is not paused then has
the closing sequence after all that was recorded of the connection if both streams ended, a reset if one
of them failed, and neither before. -/
theorem capture_ended_truthfully (hcalm : sink.Calm w) (options : Options) (connection : Connection)
    (now later : Timestamp) (moves : List TimedMove) :
    let p := (start sink.traced now connection (.create options) (w, [])).follow sink.traced moves
    let ended := (p.relay.finish sink.traced later).2.relay
    (ended.session.phase = .closed ∧ ended.session.holdsSink = false ∧
        closes ended.sink.2 = if options.shared then 0 else 1) ∧
      ∀ flow, (∀ c w, (sink.call c w).1 = .ok) →
        options.channel? (some connection) = some (.tcp flow) → (∀ x ∈ moves, x.2 ≠ .close) →
        p.relay.isOver = true → paused (p.told.map Prod.snd) = false →
        ∃ (records last : List Record) (before after : List Packet),
          p.relay.file = options.front ++ CaptureFile.encode records ∧
          ended.file = options.front ++ CaptureFile.encode (records ++ last) ∧
          records.map Record.frame = before.map Packet.frame ∧
          last.map Record.frame = after.map Packet.frame ∧
          (∀ packet ∈ before, packet.isParting = false) ∧ p.Parts flow after := by
  intro p ended
  have hfinish := @finish_run _ sink.traced now later connection (.create options) (w, []) moves
  obtain ⟨hsession, hsink⟩ := hfinish
  refine ⟨?_, ?_⟩
  · have hends := Session.run_ends hcalm options ((now, .active (some connection)) :: p.told) later
      p.relay.lastEvent_ends
    rw [hsession, hsink]
    exact hends
  · intro flow hok hchannel hmoves hover hpaused
    have htalk : ∀ e ∈ p.told.map Prod.snd, e.isTalk = true := by
      refine follow_told (fun x hx r => r.tells_talk (hmoves x hx)) ?_
      intro e he
      cases he
    have htold : ∀ x ∈ p.told, x.2.isTalk = true := fun x hx => htalk x.2 (List.mem_map_of_mem hx)
    have hopens : Opens options flow [(now, .active (some connection))] p.told :=
      .reported [] now (some connection) p.told rfl hchannel
    obtain ⟨hpackets, hsettled, -⟩ := Session.planAll_conversation hopens htold
    obtain ⟨last, hfile, hlast⟩ := Session.written_farewell hopens htold later
      p.relay.failure.isSome (e := p.relay.lastEvent) rfl
    let told := p.told.map Prod.snd
    refine ⟨timedRecords ((Session.create options).timedActs ((now, .active (some connection)) :: p.told)),
      last, barePackets flow.handshake.1 ++
        (transfers flow options.zeroBytes [] told).flatMap (Transfer.packets flow),
      farewell flow told p.relay.failure.isSome, ?_, ?_, ?_, hlast, conversation_not_parting flow _, ?_⟩
    · rw [file_eq hok]
      exact Session.written_intended _ options hsettled
    · rw [Relay.file, hsink, Session.written_never_fails hok]
      exact hfile
    · rw [Session.timedRecords_frames]
      exact congrArg _ hpackets
    · exact farewell_parts (hcalm.traced []) flow now connection _ moves hover hpaused

/-- The client sends two bytes, the service ends its stream, and the next read from the client fails. -/
def brokenMoves : List TimedMove :=
  [.read .inbound (.ok ⟨#[97, 98]⟩), .write .inbound (.ok 2), .read .outbound (.ok .empty),
    .read .inbound (.error (.bare .connectionReset)), .join .inbound, .join .outbound].map
      fun m => (.epoch, m)

theorem capture_ended_truthfully_broken :
    let p := (start Sink.recording.traced .epoch exchangeConnection (.create { id := "broken" })
      ([], [])).follow Sink.recording.traced brokenMoves
    let ended := (p.relay.finish Sink.recording.traced .epoch).2.relay
    Sink.recording.Calm [] ∧ p.relay.isOver = true ∧ ended.session.phase = .closed ∧
      ended.session.holdsSink = false ∧ closes ended.sink.2 = 1 ∧
      ∃ records last : List Record,
        ended.file = CaptureFile.header ++ CaptureFile.encode (records ++ last) ∧
        last.map Record.frame =
          [(parting Session.servingFlow (p.told.map Prod.snd) .rstAck .server 1).frame] := by
  intro p ended
  have hcalm : Sink.recording.Calm [] := Session.recording_calm []
  have hover : p.relay.isOver = true := by decide
  obtain ⟨⟨hphase, hreleased, hcloses⟩, htcp⟩ := capture_ended_truthfully hcalm { id := "broken" }
    exchangeConnection .epoch .epoch brokenMoves
  obtain ⟨records, last, before, after, -, hfile, -, hlast, -, hparts⟩ :=
    htcp Session.servingFlow (fun _ _ => rfl) rfl (by simp [brokenMoves]) hover (by decide)
  refine ⟨hcalm, hover, hphase, hreleased, hcloses, records, last, hfile, ?_⟩
  rw [hlast]
  cases hparts with
  | closed d hfirst hended hfailed => exact absurd (hfailed .inbound) (by decide)
  | reset hended hfailed => rfl

end Passage

end Wiretap
