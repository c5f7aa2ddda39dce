import Wiretap.Proofs.Ending

/-! What a relay says of a stream that failed. The first failure that is noticed is kept, whatever fails or
is stopped after it, and is one that a stream gave. It is meant to be what the relay comes to, and is as long
as the reset can be recorded; a failure of the capture over the reset is told in its place. -/

namespace Wiretap

/-- The move fails the pump of a direction with an error: a read or a write fails, or a write accepts
nothing. -/
inductive Move.Fails : Move → Direction → IoError → Prop
  | read (d : Direction) (e : IoError) : Fails (.read d (.error e)) d e
  | write (d : Direction) (e : IoError) : Fails (.write d (.error e)) d e
  | stall (d : Direction) : Fails (.write d (.ok 0)) d (.bare .writeZero)

/-- The failure that is noticed by a move. -/
def Relay.notices {σ : Type} (r : Relay σ) : Move → List (Direction × IoError)
  | .join d =>
    match r.pump d with
    | .failed e => [(d, e)]
    | _ => []
  | _ => []

/-- The failures that are noticed by the moves, in order. -/
def Passage.noticed {σ : Type} (sink : Sink σ) : List TimedMove → Passage σ → List (Direction × IoError)
  | [], _ => []
  | x :: moves, p => p.relay.notices x.2 ++ noticed sink moves (p.step sink x)

/-- What a relay comes to after a stream failed, by the calls that its last operation makes, the last one
first. -/
inductive Relay.Verdict (e : IoError) : List Answer → NetworkResult → Prop
  /-- All went well, and the failure of the stream is told. -/
  | stream (calls : List SinkCall) : Verdict e (successes calls) (.failed (.stream e))
  /-- A call failed, and its failure is told. -/
  | capture (before : List SinkCall) (c : SinkCall) (cause : IoError) (last : List Answer) :
      Verdict e (last ++ (c, .failed cause) :: successes before) (.failed (.capture (.ofCall c cause)))

theorem Relay.Verdict.stream_iff {e : IoError} {made : List Answer} {result : NetworkResult}
    (h : Relay.Verdict e made result) : result = .failed (.stream e) ↔ ∀ a ∈ made, a.2 = .ok := by
  cases h with
  | stream calls =>
      refine ⟨fun _ a ha => ?_, fun _ => rfl⟩
      obtain ⟨c, -, rfl⟩ := List.mem_map.mp (List.mem_reverse.mp ha)
      rfl
  | capture before c cause last =>
      refine ⟨(nomatch ·), fun hall => ?_⟩
      have hfailed : Outcome.failed cause = .ok :=
        hall (c, .failed cause) (List.mem_append_right last List.mem_cons_self)
      cases hfailed

/-! ### The failure that is kept -/

namespace Relay

variable {σ : Type} {sink : Sink σ} {r : Relay σ}

theorem failure_stop (r : Relay σ) (d : Direction) : (r.stop d).failure = r.failure := by
  unfold stop
  split
  · exact failure_setPump .gone d
  · rfl

/-- The first failure that is noticed is kept. -/
theorem failure_join (r : Relay σ) (d : Direction) :
    (r.join d).failure = r.failure.or ((r.notices (.join d)).head?.map Prod.snd) := by
  unfold join
  simp only [notices]
  cases r.pump d with
  | ended => exact (failure_setPump .gone d).trans Option.or_none.symm
  | failed e =>
      dsimp only
      rw [failure_setPump]
      cases hfailure : r.failure with
      | some e' => exact (failure_setPump .gone d).trans hfailure
      | none => exact failure_stop _ d.opposite
  | _ => exact Option.or_none.symm

theorem step_failure (now : Timestamp) (m : Move) (r : Relay σ) :
    (r.step sink now m).relay.failure = r.failure.or ((r.notices m).head?.map Prod.snd) := by
  cases m with
  | join d => exact r.failure_join d
  | read d got =>
      change _ = r.failure.or none
      rw [Option.or_none]
      unfold step
      dsimp only
      split
      · split
        · exact failure_setPump .ended d
        · unfold observe
          dsimp only
          split <;> exact failure_setPump _ d
      · exact failure_setPump _ d
      · rfl
  | write d got =>
      change _ = r.failure.or none
      rw [Option.or_none]
      unfold step
      dsimp only
      split
      · exact failure_setPump _ d
      · exact failure_setPump _ d
      · rfl
  | pause => exact Option.or_none.symm
  | resume => exact Option.or_none.symm
  | close => exact Option.or_none.symm

end Relay

theorem Passage.follow_failure {σ : Type} {sink : Sink σ} (moves : List TimedMove) (p : Passage σ) :
    (p.follow sink moves).relay.failure =
      p.relay.failure.or ((p.noticed sink moves).head?.map Prod.snd) := by
  induction moves generalizing p with
  | nil => exact Option.or_none.symm
  | cons x moves ih =>
      have hstep : (p.step sink x).relay.failure = _ := p.relay.step_failure x.1 x.2
      rw [noticed, List.head?_append, Option.map_or, ← Option.or_assoc, ← hstep]
      exact ih (p.step sink x)

/-! ### Where failures come from -/

/-- A pump that sends has something to send, and one that failed was given its error. -/
def Pump.Explained (given : IoError → Prop) : Pump → Prop
  | sending rest => rest.isEmpty = false
  | failed e => given e
  | _ => True

/-- Both pumps of a relay are as their streams made them. -/
def Wire.Explained (given : Direction → IoError → Prop) (x : Wire) : Prop :=
  ∀ d, (x.pump d).Explained (given d)

namespace Wire.Explained

variable {given : Direction → IoError → Prop} {x : Wire}

theorem setPump (h : x.Explained given) {p : Pump} {d : Direction} (hp : p.Explained (given d)) :
    (x.setPump p d).Explained given := by
  intro d'
  by_cases hd : d' = d
  · rw [hd, pump_setPump]
    exact hp
  · rw [pump_setPump_other x p hd]
    exact h d'

theorem stop (h : x.Explained given) (d : Direction) : (x.stop d).Explained given := by
  unfold Wire.stop
  split
  · exact h.setPump trivial
  · exact h

/-- Only the pumps matter. -/
theorem of_pumps {y : Wire} (h : x.Explained given) (hin : y.inbound = x.inbound)
    (hout : y.outbound = x.outbound) : y.Explained given := by
  intro d
  cases d with
  | inbound =>
      change y.inbound.Explained (given .inbound)
      rw [hin]
      exact h .inbound
  | outbound =>
      change y.outbound.Explained (given .outbound)
      rw [hout]
      exact h .outbound

end Wire.Explained

namespace Relay

variable {σ : Type} {sink : Sink σ} {given : Direction → IoError → Prop} {r : Relay σ}

theorem join_explained (h : r.wire.Explained given) (d : Direction) :
    (r.join d).wire.Explained given := by
  unfold join
  split
  · rw [wire_setPump]
    exact h.setPump trivial
  · rename_i e hpump
    have hgone : (r.setPump .gone d).wire.Explained given := by
      rw [wire_setPump]
      exact h.setPump trivial
    have hkept : ({ r.setPump .gone d with failure := some e } : Relay σ).wire.Explained given :=
      hgone.of_pumps rfl rfl
    dsimp only
    split
    · exact hgone
    · rw [wire_stop]
      exact hkept.stop d.opposite
  · exact h

/-- A write that accepts nothing of some bytes accepts no bytes. -/
theorem eq_zero_of_extract {rest : ByteArray} {n : Nat} (hrest : rest.isEmpty = false)
    (hnone : (rest.extract 0 n).isEmpty = true) : n = 0 := by
  rw [isEmpty_iff_size, ByteArray.size_extract] at hnone
  rw [← Bool.not_eq_true, isEmpty_iff_size] at hrest
  omega

/-- **A pump that fails in a move was failed by it.** -/
theorem step_explained (hcalm : sink.Calm r.sink) {m : Move} (hm : ∀ d e, m.Fails d e → given d e)
    (now : Timestamp) (h : r.wire.Explained given) :
    (r.step sink now m).relay.wire.Explained given := by
  cases m with
  | read d got =>
      simp only [step]
      split
      · split
        · simp only [endStream, wire_setPump]
          exact (h.of_pumps rfl rfl).setPump trivial
        · rename_i data hpump hsome
          have hsends : (Pump.sending data).Explained (given d) := Bool.eq_false_iff.mpr hsome
          have hcounted : ({ r with forwarded := r.forwarded.add data.size d } : Relay σ).wire.Explained
              given := h.of_pumps rfl rfl
          rw [(observe_calm now d data hcalm).1, wire_setPump]
          exact hcounted.setPump hsends
      · rename_i e hpump
        rw [wire_setPump]
        exact h.setPump (hm d e (.read d e))
      · exact h
  | write d got =>
      simp only [step]
      split
      · rename_i rest n hpump
        have hrest := h d
        rw [wire_pump, hpump] at hrest
        simp only [accept, wire_setPump]
        refine h.setPump ?_
        split
        · obtain rfl := eq_zero_of_extract hrest ‹_›
          exact hm d _ (.stall d)
        · split
          · trivial
          · exact Bool.eq_false_iff.mpr ‹_›
      · rename_i rest e hpump
        rw [wire_setPump]
        exact h.setPump (hm d e (.write d e))
      · exact h
  | join d => exact join_explained h d
  | pause => exact h
  | resume => exact h
  | close => exact h

theorem notices_explained (h : r.wire.Explained given) {m : Move} :
    ∀ y ∈ r.notices m, given y.1 y.2 := by
  intro y hy
  cases m with
  | join d =>
      have hpump := h d
      rw [wire_pump] at hpump
      simp only [notices] at hy
      split at hy
      · rename_i e hfailed
        rw [hfailed] at hpump
        rw [List.mem_singleton.mp hy]
        exact hpump
      · exact absurd hy List.not_mem_nil
  | _ => exact absurd hy List.not_mem_nil

end Relay

/-- **Every failure that is noticed is one that a stream gave.** -/
theorem Passage.noticed_given {σ : Type} {sink : Sink σ} {given : Direction → IoError → Prop}
    {moves : List TimedMove} (hmoves : ∀ x ∈ moves, ∀ d e, x.2.Fails d e → given d e) {p : Passage σ}
    (hcalm : sink.Calm p.relay.sink) (h : p.relay.wire.Explained given) :
    ∀ y ∈ p.noticed sink moves, given y.1 y.2 := by
  induction moves generalizing p with
  | nil => exact List.forall_mem_nil _
  | cons x moves ih =>
      rw [List.forall_mem_cons] at hmoves
      rw [noticed, List.forall_mem_append]
      exact ⟨Relay.notices_explained h, ih hmoves.2 (Relay.step_calm x.1 x.2 hcalm)
        (Relay.step_explained hcalm hmoves.1 x.1 h)⟩

/-! ### What the relay comes to -/

namespace Relay

variable {σ : Type} {sink : Sink σ} {r : Relay (σ × List Answer)}

/-- After a failure the reset decides what the relay comes to. -/
theorem finish_verdict (hcalm : sink.traced.Calm r.sink) {e : IoError} (hfailure : r.failure = some e)
    (later : Timestamp) :
    ∃ made, (r.finish sink.traced later).2.relay.sink.2 = made ++ r.sink.2 ∧
      Verdict e made (r.finish sink.traced later).1 := by
  simp only [finish, hfailure, tell]
  cases Session.handle_carries sink.traced later .error r.session r.sink with
  | @done w' hcalls hresult hsession hsink =>
      refine ⟨successes ((r.session.plan .error).calls later), ?_, ?_⟩
      · rw [hsink, Session.leave_traced]
        exact hcalls.of_traced.2
      · rw [hresult]
        exact .stream _
  | failed hbreaks hresult hphase hholds =>
      obtain ⟨before, c, after, cause, last, -, rfl, -, hlog⟩ := hbreaks.of_traced
      refine ⟨last ++ (c, .failed cause) :: successes before, ?_, ?_⟩
      · rw [hlog, List.append_assoc, List.cons_append]
      · rw [hresult]
        exact .capture before c cause last
  | panicked hpanic hresult => exact absurd hpanic hcalm

end Relay

namespace Passage

variable {σ : Type} {sink : Sink σ} {w : σ}

/-- **The first failure of a stream is what a relay comes to, if it can record the reset.** Whatever comes
about in which order, and whatever the sink answers short of a panic: when the relay of a stream that
failed is over, the failure that was noticed first is one that the stream gave, and is told, unless a call
of the sink fails while the reset is recorded and the capture closed. Then that failure is told. -/
theorem stream_failure_told (hcalm : sink.Calm w) (session : Session) (connection : Connection)
    (now later : Timestamp) (moves : List TimedMove) :
    let opened := start sink.traced now connection session (w, [])
    let p := opened.follow sink.traced moves
    let ended := p.relay.finish sink.traced later
    p.relay.isOver = true → (∃ d : Direction, d.failed p.traffic = true) →
    ∃ d e rest made, opened.noticed sink.traced moves = (d, e) :: rest ∧
      (∃ x ∈ moves, x.2.Fails d e) ∧ ended.2.relay.sink.2 = made ++ p.relay.sink.2 ∧
      Relay.Verdict e made ended.1 ∧ (ended.1 = .failed (.stream e) ↔ ∀ a ∈ made, a.2 = .ok) := by
  intro opened p ended hover hfailed
  have htraced : sink.traced.Calm (w, []) := hcalm.traced []
  have hopened : sink.traced.Calm opened.relay.sink :=
    (Session.handle_calm now (.active (some connection)) session htraced).2
  have hcalm' : sink.traced.Calm p.relay.sink :=
    follow_keeps (P := fun p => sink.traced.Calm p.relay.sink)
      (fun _ x _ h => Relay.step_calm x.1 x.2 h) hopened
  -- a failure that the streams saw is known to a relay that is over
  have hfates : p.relay.wire.Fates p.reads p.traffic :=
    follow_fates htraced now connection session moves
  have hgone : ∀ d, p.relay.wire.pump d = .gone := by
    intro d
    rw [Relay.wire_pump, Relay.pump_of_isOver hover]
  have hknown : p.relay.failure.isSome = true := (hfates.known hgone).1.mpr hfailed
  obtain ⟨e, he⟩ := Option.isSome_iff_exists.mp hknown
  -- it is the first one that was noticed
  have hkept : p.relay.failure = ((opened.noticed sink.traced moves).head?.map Prod.snd) :=
    follow_failure moves opened
  have hexplained : opened.relay.wire.Explained fun d e => ∃ x ∈ moves, x.2.Fails d e := by
    rintro (_ | _) <;> exact trivial
  have hgiven : ∀ y ∈ opened.noticed sink.traced moves, ∃ x ∈ moves, x.2.Fails y.1 y.2 :=
    noticed_given (fun x hx d e hfails => ⟨x, hx, hfails⟩) hopened hexplained
  obtain ⟨made, hmade, hverdict⟩ := Relay.finish_verdict hcalm' he later
  rcases hnoticed : opened.noticed sink.traced moves with _ | ⟨⟨d, e'⟩, rest⟩
  · rw [hnoticed, he] at hkept
    cases hkept
  · rw [hnoticed, he] at hkept
    cases hkept
    rw [hnoticed] at hgiven
    exact ⟨d, e', rest, made, rfl, hgiven _ List.mem_cons_self, hmade, hverdict, hverdict.stream_iff⟩

/-- Both streams fail; that of the service is noticed first. -/
def bothFail : List TimedMove :=
  [.read .inbound (.ok ⟨#[97]⟩), .write .inbound (.ok 0),
    .read .outbound (.error (.bare .connectionReset)), .join .outbound, .join .inbound].map
      fun m => (.epoch, m)

/-- The flush of the payload fails, so that the capture is over before the streams fail. -/
def payloadUnflushed : Rehearsed := { answers := [.ok, .ok, .ok, .failed (.bare .timedOut)] }

theorem stream_failure_told_first :
    let opened := start Sink.rehearsed.traced .epoch exchangeConnection (.create { id := "both" })
      (payloadUnflushed, [])
    let p := opened.follow Sink.rehearsed.traced bothFail
    let ended := p.relay.finish Sink.rehearsed.traced .epoch
    Sink.rehearsed.Calm payloadUnflushed ∧ p.relay.isOver = true ∧
      (∃ d : Direction, d.failed p.traffic = true) ∧
      opened.noticed Sink.rehearsed.traced bothFail =
        [(.outbound, .bare .connectionReset), (.inbound, .bare .writeZero)] ∧
      (∃ x ∈ bothFail, x.2.Fails .outbound (.bare .connectionReset)) ∧
      ended.1 = .failed (.stream (.bare .connectionReset)) := by
  intro opened p ended
  have hcalm : Sink.rehearsed.Calm payloadUnflushed := Sink.rehearsed_calm (by decide)
  have hover : p.relay.isOver = true := by decide
  have hfailed : ∃ d : Direction, d.failed p.traffic = true := ⟨.inbound, by decide⟩
  have hnoticed : opened.noticed Sink.rehearsed.traced bothFail =
      [(.outbound, .bare .connectionReset), (.inbound, .bare .writeZero)] := by decide
  obtain ⟨d, e, rest, made, hfirst, hgiven, hmade, -, hstream⟩ := stream_failure_told hcalm
    (.create { id := "both" }) exchangeConnection .epoch .epoch bothFail hover hfailed
  have hsame := hfirst.symm.trans hnoticed
  cases hsame
  have hsilent : ended.2.relay.sink.2 = p.relay.sink.2 := rfl
  obtain rfl : made = [] := List.append_left_eq_self.mp (hmade.symm.trans hsilent)
  exact ⟨hcalm, hover, hfailed, hnoticed, hgiven, hstream.mpr (List.forall_mem_nil _)⟩

/-- The client's stream fails, and the write of the reset after it. -/
theorem stream_failure_masked :
    let moves : List TimedMove :=
      [(.epoch, .read .inbound (.error (.bare .connectionReset))), (.epoch, .join .inbound)]
    let opened := start Sink.rehearsed .epoch exchangeConnection (.create { id := "masked" })
      { answers := [.ok, .ok, .failed (.bare .brokenPipe)] }
    let p := opened.follow Sink.rehearsed moves
    p.relay.isOver = true ∧
      opened.noticed Sink.rehearsed moves = [(.inbound, .bare .connectionReset)] ∧
      (p.relay.finish Sink.rehearsed .epoch).1 = .failed (.capture (.write (.bare .brokenPipe))) ∧
      (p.relay.finish Sink.rehearsed .epoch).1 ≠ .failed (.stream (.bare .connectionReset)) :=
  ⟨by decide, by decide, by decide, by decide⟩

end Passage

end Wiretap
