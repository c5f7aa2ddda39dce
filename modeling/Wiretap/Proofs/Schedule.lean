import Wiretap.Proofs.Forwarding
import Wiretap.Proofs.Frames

/-! Relays under a schedule. Any moves in any order, at any times, take a relay from its start to where it
is: reads of any bytes, writes that accept a part, failures, ends that are noticed late, requests from
outside. What one move can do is said here once, in two halves. Towards the streams, one pump makes a
step or the end of a pump is noticed. Towards the session, a move is a read that it is told of or a
request that it is passed; so what a relay makes of its capture is a run of the session. -/

namespace Wiretap

namespace Direction

theorem source_eq_iff (d d' : Direction) : d.source = d'.source ↔ d = d' := by
  cases d <;> cases d' <;> simp [source]

theorem target_eq_iff (d d' : Direction) : d.target = d'.target ↔ d = d' := by
  cases d <;> cases d' <;> simp [target]

end Direction

/-- A move and when it comes about. -/
abbrev TimedMove := Timestamp × Move

/-- What the session is told of bytes that were read. -/
def Event.ofRead (x : Stream × ByteArray) : Event :=
  if x.2.isEmpty then .shutdown x.1.direction else .payload x.1.direction x.2

theorem Event.ofRead_none {data : ByteArray} (h : data.isEmpty = true) (d : Direction) :
    Event.ofRead (d.source, data) = .shutdown d := by
  rw [ofRead, if_pos h, Stream.direction_source]

theorem Event.ofRead_some {data : ByteArray} (h : data.isEmpty = false) (d : Direction) :
    Event.ofRead (d.source, data) = .payload d data := by
  rw [ofRead, if_neg (by simp [h]), Stream.direction_source]

/-- What is asked of the session from outside. -/
def Move.requests : Move → List Event
  | .pause => [.pause]
  | .resume => [.resume]
  | .close => [.close]
  | _ => []

namespace Tally

def of (t : Tally) : Direction → UInt64
  | .inbound => t.fromClient
  | .outbound => t.fromService

@[simp] theorem of_add_same (t : Tally) (n : Nat) (d : Direction) :
    (t.add n d).of d = t.of d + .ofNat n := by
  cases d <;> rfl

theorem of_add_other (t : Tally) (n : Nat) {d d' : Direction} (h : d' ≠ d) :
    (t.add n d).of d' = t.of d' := by
  cases d <;> cases d' <;> first | rfl | exact absurd rfl h

@[simp] theorem add_zero (t : Tally) (d : Direction) : t.add 0 d = t := by
  cases d <;> simp [add]

end Tally

/-! ### What a pump can do -/

/-- One step of the pump of a direction: what it reads, what the streams see of it, and what it is at
afterwards. It breaks off only if the capture panics. -/
inductive Pump.Step (panics : Prop) (d : Direction) :
    Pump → List (Stream × ByteArray) → List Traffic → Pump → Prop
  | takes (data : ByteArray) (hsome : data.isEmpty = false) :
      Step panics d .reading [(d.source, data)] [.read d.source data.size] (.sending data)
  | breaks (data : ByteArray) (hsome : data.isEmpty = false) (hpanic : panics) :
      Step panics d .reading [(d.source, data)] [.read d.source data.size] (.failed Relay.brokenOff)
  | ends (data : ByteArray) (hnone : data.isEmpty = true) :
      Step panics d .reading [(d.source, data)] [.read d.source 0, .shutdown d.target] .ended
  | readFails (e : IoError) : Step panics d .reading [] [.readFailed d.source] (.failed e)
  | sends (rest : ByteArray) (n : Nat) (hsome : (rest.extract 0 n).isEmpty = false) :
      Step panics d (.sending rest) [] [.sent d.target (rest.extract 0 n)]
        (if (rest.extract n rest.size).isEmpty then .reading else .sending (rest.extract n rest.size))
  | stalls (rest : ByteArray) (n : Nat) (hnone : (rest.extract 0 n).isEmpty = true) :
      Step panics d (.sending rest) [] [.sent d.target (rest.extract 0 n)] (.failed (.bare .writeZero))
  | sendFails (rest : ByteArray) (e : IoError) :
      Step panics d (.sending rest) [] [.sendFailed d.target] (.failed e)

theorem Pump.Step.isRunning {panics : Prop} {d : Direction} {p q : Pump}
    {reads : List (Stream × ByteArray)} {traffic : List Traffic}
    (h : Pump.Step panics d p reads traffic q) : p.isRunning = true := by
  cases h <;> rfl

/-- How many bytes were read. -/
def readLength : List (Stream × ByteArray) → Nat
  | [] => 0
  | x :: reads => x.2.size + readLength reads

namespace Wire

def pump (x : Wire) : Direction → Pump
  | .inbound => x.inbound
  | .outbound => x.outbound

def setPump (x : Wire) (p : Pump) : Direction → Wire
  | .inbound => { x with inbound := p }
  | .outbound => { x with outbound := p }

def stop (x : Wire) (d : Direction) : Wire :=
  if (x.pump d).isRunning then x.setPump .gone d else x

@[simp] theorem pump_setPump (x : Wire) (p : Pump) (d : Direction) : (x.setPump p d).pump d = p := by
  cases d <;> rfl

theorem pump_setPump_other (x : Wire) (p : Pump) {d d' : Direction} (h : d' ≠ d) :
    (x.setPump p d).pump d' = x.pump d' := by
  cases d <;> cases d' <;> first | rfl | exact absurd rfl h

@[simp] theorem forwarded_setPump (x : Wire) (p : Pump) (d : Direction) :
    (x.setPump p d).forwarded = x.forwarded := by
  cases d <;> rfl

@[simp] theorem failure_setPump (x : Wire) (p : Pump) (d : Direction) :
    (x.setPump p d).failure = x.failure := by
  cases d <;> rfl

@[simp] theorem forwarded_stop (x : Wire) (d : Direction) : (x.stop d).forwarded = x.forwarded := by
  unfold stop
  split
  · exact x.forwarded_setPump .gone d
  · rfl

@[simp] theorem failure_stop (x : Wire) (d : Direction) : (x.stop d).failure = x.failure := by
  unfold stop
  split
  · exact x.failure_setPump .gone d
  · rfl

/-- A pump is stopped where it waits, or left as it is. -/
theorem pump_stop (x : Wire) (d d' : Direction) :
    (x.stop d).pump d' = x.pump d' ∨ ((x.pump d').isRunning = true ∧ (x.stop d).pump d' = .gone) := by
  unfold stop
  split
  · rename_i hrunning
    by_cases hd : d' = d
    · rw [hd]
      exact .inr ⟨hrunning, x.pump_setPump .gone d⟩
    · exact .inl (x.pump_setPump_other .gone hd)
  · exact .inl rfl

/-- A first failure leaves its pump gone and the other gone or as it was, if it was not running. -/
theorem pump_fails (x : Wire) (e : IoError) (d d' : Direction) :
    let y := ({ x.setPump .gone d with failure := some e } : Wire).stop d.opposite
    (d' = d ∧ y.pump d' = .gone) ∨ (d' ≠ d ∧
      (y.pump d' = x.pump d' ∨ ((x.pump d').isRunning = true ∧ y.pump d' = .gone))) := by
  let z : Wire := { x.setPump .gone d with failure := some e }
  have hpump : z.pump d' = (x.setPump .gone d).pump d' := by cases d' <;> rfl
  have hstop := z.pump_stop d.opposite d'
  rw [hpump] at hstop
  by_cases hd : d' = d
  · rw [hd, pump_setPump] at hstop
    rw [hd]
    exact .inl ⟨rfl, hstop.elim id fun hgone => hgone.2⟩
  · rw [pump_setPump_other x .gone hd] at hstop
    exact .inr ⟨hd, hstop⟩

/-- What a move can do to a relay but for its capture. -/
inductive Turn (panics : Prop) (x : Wire) : List (Stream × ByteArray) → List Traffic → Wire → Prop
  | stays : Turn panics x [] [] x
  | pumps (d : Direction) {reads : List (Stream × ByteArray)} {traffic : List Traffic} {p : Pump}
      (hstep : Pump.Step panics d (x.pump d) reads traffic p) :
      Turn panics x reads traffic
        ({ x with forwarded := x.forwarded.add (readLength reads) d }.setPump p d)
  | joins (d : Direction) (hpump : x.pump d = .ended) : Turn panics x [] [] (x.setPump .gone d)
  | fails (d : Direction) (e : IoError) (hpump : x.pump d = .failed e) (hfirst : x.failure = none) :
      Turn panics x [] [] ({ x.setPump .gone d with failure := some e }.stop d.opposite)
  | failsLater (d : Direction) (e : IoError) (hpump : x.pump d = .failed e)
      (hlater : x.failure.isSome = true) : Turn panics x [] [] (x.setPump .gone d)

end Wire

namespace Relay

variable {σ : Type} {sink : Sink σ}

@[simp] theorem wire_pump (r : Relay σ) (d : Direction) : r.wire.pump d = r.pump d := by cases d <;> rfl

@[simp] theorem wire_setPump (r : Relay σ) (p : Pump) (d : Direction) :
    (r.setPump p d).wire = r.wire.setPump p d := by
  cases d <;> rfl

@[simp] theorem wire_stop (r : Relay σ) (d : Direction) : (r.stop d).wire = r.wire.stop d := by
  rw [stop, Wire.stop, wire_pump]
  split
  · exact r.wire_setPump .gone d
  · rfl

theorem pump_of_isOver {r : Relay σ} (h : r.isOver = true) (d : Direction) : r.pump d = .gone := by
  have hgone : ∀ {p : Pump}, p.isGone = true → p = .gone := by
    intro p hp
    cases p <;> first | rfl | cases hp
  obtain ⟨hin, hout⟩ := Bool.and_eq_true_iff.mp h
  cases d with
  | inbound => exact hgone hin
  | outbound => exact hgone hout

theorem turn_join (panics : Prop) (r : Relay σ) (d : Direction) :
    r.wire.Turn panics [] [] (r.join d).wire := by
  unfold join
  split
  · rename_i hpump
    rw [wire_setPump]
    exact .joins d ((r.wire_pump d).trans hpump)
  · rename_i e hpump
    dsimp only
    rw [Relay.failure_setPump]
    cases hfailure : r.failure with
    | some e' =>
        rw [wire_setPump]
        exact .failsLater d e ((r.wire_pump d).trans hpump) (by rw [wire, hfailure]; rfl)
    | none =>
        have hwire : ({ r.setPump .gone d with failure := some e } : Relay σ).wire =
            { r.wire.setPump .gone d with failure := some e } := by
          rw [← wire_setPump]
          rfl
        rw [wire_stop, hwire]
        exact .fails d e ((r.wire_pump d).trans hpump) hfailure
  · exact .stays

theorem turn_of_step {panics : Prop} {r : Relay σ} {d : Direction} {p q : Pump}
    {reads : List (Stream × ByteArray)} {traffic : List Traffic} (hpump : r.pump d = p)
    (hstep : Pump.Step panics d p reads traffic q) :
    r.wire.Turn panics reads traffic
      ({ r.wire with forwarded := r.forwarded.add (readLength reads) d }.setPump q d) := by
  rw [← hpump, ← wire_pump] at hstep
  exact .pumps d hstep

/-- A step that reads nothing counts nothing. -/
theorem turn_of_silent {panics : Prop} {r : Relay σ} {d : Direction} {p q : Pump}
    {traffic : List Traffic} (hpump : r.pump d = p) (hstep : Pump.Step panics d p [] traffic q) :
    r.wire.Turn panics [] traffic (r.setPump q d).wire := by
  have hturn := turn_of_step hpump hstep
  rw [readLength, Tally.add_zero] at hturn
  rw [wire_setPump]
  exact hturn

/-- Bytes that were read are to be sent, unless the capture panics over them. -/
theorem turn_observe (now : Timestamp) {r : Relay σ} {d : Direction} {data : ByteArray}
    (hpump : r.pump d = .reading) (hsome : data.isEmpty = false) :
    r.wire.Turn (sink.CanPanic r.sink) [(d.source, data)] (r.observe sink now d data).traffic
      (r.observe sink now d data).relay.wire := by
  have htakes := turn_of_step hpump (@Pump.Step.takes (sink.CanPanic r.sink) d data hsome)
  cases Session.handle_carries sink now (.payload d data) r.session r.sink with
  | done _ hresult =>
      simp only [observe, tell, hresult, wire_setPump]
      exact htakes
  | failed _ hresult =>
      simp only [observe, tell, hresult, wire_setPump]
      exact htakes
  | panicked hpanic =>
      unfold observe
      dsimp only
      split
      · rw [wire_setPump]
        exact turn_of_step hpump (.breaks data hsome hpanic)
      · rw [wire_setPump]
        exact htakes

/-- The end of a stream counts nothing. -/
theorem turn_endStream (now : Timestamp) {r : Relay σ} {d : Direction} {data : ByteArray}
    (hpump : r.pump d = .reading) (hnone : data.isEmpty = true) :
    r.wire.Turn (sink.CanPanic r.sink) [(d.source, data)] (r.endStream sink now d).traffic
      (r.endStream sink now d).relay.wire := by
  have hturn := turn_of_step hpump (@Pump.Step.ends (sink.CanPanic r.sink) d data hnone)
  have hlength : readLength [(d.source, data)] = 0 := (isEmpty_iff_size data).mp hnone
  rw [hlength, Tally.add_zero] at hturn
  simp only [endStream, tell, wire_setPump]
  exact hturn

theorem turn_accept {panics : Prop} {r : Relay σ} {d : Direction} {rest : ByteArray} (n : Nat)
    (hpump : r.pump d = .sending rest) :
    r.wire.Turn panics [] (r.accept d rest n).traffic (r.accept d rest n).relay.wire := by
  unfold accept
  dsimp only
  cases hnone : (rest.extract 0 n).isEmpty with
  | true => exact turn_of_silent hpump (.stalls rest n hnone)
  | false => exact turn_of_silent hpump (.sends rest n hnone)

/-- **What a move does towards the streams.** -/
theorem step_turn (now : Timestamp) (m : Move) (r : Relay σ) :
    r.wire.Turn (sink.CanPanic r.sink) (r.bytesTaken m) (r.step sink now m).traffic
      (r.step sink now m).relay.wire := by
  cases m with
  | read d got =>
      cases hpump : r.pump d with
      | reading =>
          cases got with
          | error e =>
              simp only [step, bytesTaken, hpump]
              exact turn_of_silent hpump (.readFails e)
          | ok data =>
              simp only [step, bytesTaken, hpump]
              split
              · exact turn_endStream now hpump ‹_›
              · exact turn_observe now hpump (Bool.eq_false_iff.mpr ‹_›)
      | _ => cases got <;> simp only [step, bytesTaken, hpump] <;> exact .stays
  | write d got =>
      cases hpump : r.pump d with
      | sending rest =>
          cases got with
          | error e =>
              simp only [step, bytesTaken, hpump]
              exact turn_of_silent hpump (.sendFails rest e)
          | ok n =>
              simp only [step, bytesTaken, hpump]
              exact turn_accept n hpump
      | _ => cases got <;> simp only [step, bytesTaken, hpump] <;> exact .stays
  | join d => exact turn_join _ r d
  | pause => exact .stays
  | resume => exact .stays
  | close => exact .stays

/-! ### What the session is told -/

/-- What the session is told by a move: of a read, or what is asked of it. -/
def tells (r : Relay σ) (m : Move) : List Event := (r.bytesTaken m).map Event.ofRead ++ m.requests

@[simp] theorem session_setPump (r : Relay σ) (p : Pump) (d : Direction) :
    (r.setPump p d).session = r.session := by
  cases d <;> rfl

@[simp] theorem session_stop (r : Relay σ) (d : Direction) : (r.stop d).session = r.session := by
  unfold stop
  split
  · exact r.session_setPump .gone d
  · rfl

@[simp] theorem session_join (r : Relay σ) (d : Direction) : (r.join d).session = r.session := by
  unfold join
  split
  · exact r.session_setPump .gone d
  · dsimp only
    split
    · exact r.session_setPump .gone d
    · rw [session_stop]
      exact r.session_setPump .gone d
  · rfl

theorem observe_capture (now : Timestamp) (d : Direction) (data : ByteArray) (r : Relay σ) :
    (r.observe sink now d data).relay.session =
        (r.session.handle sink now (.payload d data) r.sink).session ∧
      (r.observe sink now d data).relay.sink =
        (r.session.handle sink now (.payload d data) r.sink).sink := by
  unfold observe
  dsimp only
  split <;> exact ⟨session_setPump _ _ d, sink_setPump _ d⟩

/-- **What a move does towards the session.** The session runs through what it is told. -/
theorem step_capture (now : Timestamp) (m : Move) (r : Relay σ) :
    let course := r.session.run sink ((r.tells m).map fun e => (now, e)) r.sink
    (r.step sink now m).relay.session = course.session ∧
      (r.step sink now m).relay.sink = course.sink := by
  cases m with
  | read d got =>
      cases hpump : r.pump d with
      | reading =>
          cases got with
          | error e =>
              simp only [step, tells, bytesTaken, hpump]
              exact ⟨session_setPump r _ d, sink_setPump _ d⟩
          | ok data =>
              simp only [step, tells, bytesTaken, hpump, List.map_cons, List.map_nil, Move.requests]
              cases hnone : data.isEmpty with
              | true =>
                  rw [Event.ofRead_none hnone]
                  exact ⟨session_setPump _ .ended d, sink_setPump .ended d⟩
              | false =>
                  rw [Event.ofRead_some hnone]
                  exact observe_capture now d data r
      | _ => cases got <;> simp only [step, tells, bytesTaken, hpump] <;> exact ⟨rfl, rfl⟩
  | write d got =>
      simp only [step, tells, bytesTaken]
      split
      · exact ⟨session_setPump r _ d, sink_setPump _ d⟩
      · exact ⟨session_setPump r _ d, sink_setPump _ d⟩
      · exact ⟨rfl, rfl⟩
  | join d => exact ⟨session_join r d, sink_join d⟩
  | pause => exact ⟨rfl, rfl⟩
  | resume => exact ⟨rfl, rfl⟩
  | close => exact ⟨rfl, rfl⟩

end Relay

/-- A relay under way and what its session has been told since it became active. -/
structure Passage (σ : Type) extends Transit σ where
  told : List TimedEvent := []

namespace Passage

variable {σ : Type} (sink : Sink σ)

/-- The relay has been started on a session. -/
def start (now : Timestamp) (connection : Connection) (session : Session) (w : σ) : Passage σ :=
  let reply := Relay.start sink now connection session w
  { relay := reply.relay, traffic := reply.traffic }

def step (x : TimedMove) (p : Passage σ) : Passage σ :=
  { p.toTransit.step sink x.1 x.2 with
    told := p.told ++ (p.relay.tells x.2).map fun e => (x.1, e) }

/-- The moves have come about one after another. -/
def follow (moves : List TimedMove) (p : Passage σ) : Passage σ :=
  moves.foldl (fun p x => p.step sink x) p

variable {sink}

theorem follow_append (moves more : List TimedMove) (p : Passage σ) :
    p.follow sink (moves ++ more) = (p.follow sink moves).follow sink more :=
  List.foldl_append

/-- What every step keeps, all moves keep. -/
theorem follow_keeps {P : Passage σ → Prop} {moves : List TimedMove}
    (hstep : ∀ p, ∀ x ∈ moves, P p → P (p.step sink x)) {p : Passage σ} (h : P p) :
    P (p.follow sink moves) :=
  List.foldlRecOn moves _ h fun p hp x hx => hstep p x hx hp

theorem step_told (x : TimedMove) (p : Passage σ) :
    (p.step sink x).told.map Prod.snd = p.told.map Prod.snd ++ p.relay.tells x.2 := by
  simp [step, Function.comp_def]

/-- What holds of all that the moves have a session told. -/
theorem follow_told {Q : Event → Prop} {moves : List TimedMove}
    (hmoves : ∀ x ∈ moves, ∀ r : Relay σ, ∀ e ∈ r.tells x.2, Q e) {p : Passage σ}
    (hp : ∀ e ∈ p.told.map Prod.snd, Q e) : ∀ e ∈ (p.follow sink moves).told.map Prod.snd, Q e := by
  refine follow_keeps (P := fun p => ∀ e ∈ p.told.map Prod.snd, Q e) ?_ hp
  intro p x hx hp
  rw [step_told, List.forall_mem_append]
  exact ⟨hp, hmoves x hx p.relay⟩

theorem follow_told_grows (moves : List TimedMove) (p : Passage σ) :
    ∃ more, (p.follow sink moves).told = p.told ++ more := by
  refine follow_keeps (P := fun q => ∃ more, q.told = p.told ++ more) ?_ ⟨[], (List.append_nil _).symm⟩
  rintro q x - ⟨more, hmore⟩
  refine ⟨more ++ (q.relay.tells x.2).map fun e => (x.1, e), ?_⟩
  rw [← List.append_assoc, ← hmore]
  rfl

/-- **A relay makes of its capture what its session does, told as it was.** -/
theorem follow_capture (now : Timestamp) (connection : Connection) (session : Session) (w : σ)
    (moves : List TimedMove) :
    let p := (start sink now connection session w).follow sink moves
    let course := session.run sink ((now, .active (some connection)) :: p.told) w
    p.relay.session = course.session ∧ p.relay.sink = course.sink := by
  let P (p : Passage σ) : Prop :=
    let course := session.run sink ((now, .active (some connection)) :: p.told) w
    p.relay.session = course.session ∧ p.relay.sink = course.sink
  change P _
  refine follow_keeps (P := P) ?_ ⟨rfl, rfl⟩
  rintro p x - ⟨hsession, hsink⟩
  have hcapture := @Relay.step_capture σ sink x.1 x.2 p.relay
  rw [hsession, hsink] at hcapture
  simp only [P, step, Transit.step]
  rw [← List.cons_append, Session.run_append]
  exact hcapture

end Passage

end Wiretap
