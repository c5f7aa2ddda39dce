import Wiretap.Relay
import Wiretap.Proofs.Trace

/-! Forwarding. What a relay does to its streams is what its pumps do, and these look at the capture only
to see whether it panicked. So two relays with the same streams around them, each with a session and a
sink of its own, read, send and shut down the same, as long as neither sink panics: failures of a capture
show in what is captured and in the relay's result, and nowhere else. -/

namespace Wiretap

/-- A relay but for its capture: what the pumps are at, what was forwarded, and the first failure. -/
structure Wire where
  inbound : Pump
  outbound : Pump
  forwarded : Tally
  failure : Option IoError

namespace Wire

/-- What becomes of a relay if its capture can be closed or reset. -/
def verdict (x : Wire) : NetworkResult :=
  match x.failure with
  | some e => .failed (.stream e)
  | none => .done

end Wire

/-- The streams and the scheduler around a relay: given what the streams saw so far and what the pumps
are at, what comes about next. Scripted streams and a schedule are one way to say so. -/
abbrev Surroundings := List Traffic → Wire → Move

namespace Relay

variable {σ τ : Type}

def wire (r : Relay σ) : Wire := ⟨r.inbound, r.outbound, r.forwarded, r.failure⟩

/-- The bytes that a relay takes from a stream by a move: those of a read that a pump waits for. -/
def bytesTaken (r : Relay σ) : Move → List (Stream × ByteArray)
  | .read d (.ok data) =>
    match r.pump d with
    | .reading => [(d.source, data)]
    | _ => []
  | _ => []

end Relay

/-- A relay under way, the bytes that it has read and what the streams have seen of it. -/
structure Transit (σ : Type) where
  relay : Relay σ
  reads : List (Stream × ByteArray) := []
  traffic : List Traffic := []

namespace Transit

variable {σ : Type} (sink : Sink σ)

def step (now : Timestamp) (m : Move) (t : Transit σ) : Transit σ :=
  let reply := t.relay.step sink now m
  ⟨reply.relay, t.reads ++ t.relay.bytesTaken m, t.traffic ++ reply.traffic⟩

/-- The relay has been started on a session, and so many moves have come about since. -/
def run (clock : Nat → Timestamp) (connection : Connection) (session : Session)
    (surroundings : Surroundings) (w : σ) : Nat → Transit σ
  | 0 =>
    let reply := Relay.start sink (clock 0) connection session w
    ⟨reply.relay, [], reply.traffic⟩
  | n + 1 =>
    let t := run clock connection session surroundings w n
    t.step sink (clock (n + 1)) (surroundings t.traffic t.relay.wire)

end Transit

namespace Session

variable {σ : Type} {sink : Sink σ} {w : σ}

/-- An operation on a calm sink does not panic and leaves the sink calm. -/
theorem handle_calm (now : Timestamp) (e : Event) (s : Session) (hcalm : sink.Calm w) :
    (s.handle sink now e w).result ≠ .panicked ∧ sink.Calm (s.handle sink now e w).sink := by
  cases handle_carries sink now e s w with
  | done hcalls hresult _ hsink =>
      refine ⟨by rw [hresult]; exact Result.noConfusion, ?_⟩
      rw [hsink]
      exact hcalm.of_reaches ((hcalls.reaches sink).leave s (s.plan e).session)
  | failed hbreaks hresult =>
      exact ⟨by rw [hresult]; exact Result.noConfusion, hcalm.of_reaches (hbreaks.reaches sink)⟩
  | panicked hpanic => exact absurd hpanic hcalm

end Session

namespace Relay

variable {σ τ : Type} {sink : Sink σ} {sink' : Sink τ} {r : Relay σ} {r' : Relay τ}

/-! ### Pumps -/

theorem wire_eq_iff : r.wire = r'.wire ↔
    r.inbound = r'.inbound ∧ r.outbound = r'.outbound ∧ r.forwarded = r'.forwarded ∧
      r.failure = r'.failure := by
  simp [wire]

theorem pump_of_wire (h : r.wire = r'.wire) (d : Direction) : r.pump d = r'.pump d := by
  obtain ⟨hin, hout, -, -⟩ := wire_eq_iff.mp h
  cases d with
  | inbound => exact hin
  | outbound => exact hout

theorem setPump_of_wire (h : r.wire = r'.wire) (p : Pump) (d : Direction) :
    (r.setPump p d).wire = (r'.setPump p d).wire := by
  obtain ⟨hin, hout, hforwarded, hfailure⟩ := wire_eq_iff.mp h
  cases d with
  | inbound => exact wire_eq_iff.mpr ⟨rfl, hout, hforwarded, hfailure⟩
  | outbound => exact wire_eq_iff.mpr ⟨hin, rfl, hforwarded, hfailure⟩

theorem stop_of_wire (h : r.wire = r'.wire) (d : Direction) : (r.stop d).wire = (r'.stop d).wire := by
  unfold stop
  rw [pump_of_wire h]
  split
  · exact setPump_of_wire h _ d
  · exact h

theorem failure_setPump (p : Pump) (d : Direction) : (r.setPump p d).failure = r.failure := by
  cases d <;> rfl

theorem join_of_wire (h : r.wire = r'.wire) (d : Direction) : (r.join d).wire = (r'.join d).wire := by
  have hgone := setPump_of_wire h .gone d
  have hfailure : r.failure = r'.failure := (wire_eq_iff.mp h).2.2.2
  unfold join
  rw [pump_of_wire h]
  split
  · exact hgone
  · dsimp only
    rw [failure_setPump, failure_setPump, hfailure]
    cases r'.failure with
    | some e => exact hgone
    | none =>
        obtain ⟨hin, hout, hforwarded, -⟩ := wire_eq_iff.mp hgone
        have hfailed : ({ r.setPump .gone d with failure := some ‹IoError› } : Relay σ).wire =
            ({ r'.setPump .gone d with failure := some ‹IoError› } : Relay τ).wire :=
          wire_eq_iff.mpr ⟨hin, hout, hforwarded, rfl⟩
        exact stop_of_wire hfailed d.opposite
  · exact h

theorem bytesTaken_of_wire (h : r.wire = r'.wire) (m : Move) : r.bytesTaken m = r'.bytesTaken m := by
  unfold bytesTaken
  split
  · rw [pump_of_wire h]
  · rfl

/-! ### The capture -/

variable (now now' : Timestamp)

theorem observe_calm (d : Direction) (data : ByteArray) (hcalm : sink.Calm r.sink) :
    (r.observe sink now d data).relay.wire =
        ({ r with forwarded := r.forwarded.add data.size d }.setPump (.sending data) d).wire ∧
      (r.observe sink now d data).traffic = [.read d.source data.size] := by
  have hpanic := (Session.handle_calm now (.payload d data) r.session hcalm).1
  unfold observe tell
  dsimp only
  split
  · exact absurd ‹_› hpanic
  · exact ⟨setPump_of_wire (by exact rfl) _ d, rfl⟩

@[simp] theorem sink_setPump (p : Pump) (d : Direction) : (r.setPump p d).sink = r.sink := by
  cases d <;> rfl

@[simp] theorem sink_stop (d : Direction) : (r.stop d).sink = r.sink := by
  unfold stop
  split
  · exact sink_setPump _ d
  · rfl

@[simp] theorem sink_join (d : Direction) : (r.join d).sink = r.sink := by
  unfold join
  split
  · exact sink_setPump _ d
  · dsimp only
    split
    · exact sink_setPump _ d
    · rw [sink_stop]
      exact sink_setPump _ d
  · rfl

/-- By a move the session is told one thing or nothing. -/
theorem step_tells (m : Move) : (r.step sink now m).relay.sink = r.sink ∨
    ∃ e, (r.step sink now m).relay.sink = (r.session.handle sink now e r.sink).sink := by
  cases m with
  | read d got =>
      unfold step
      dsimp only
      split
      · rename_i _ _ data _
        split
        · exact .inr ⟨.shutdown d, sink_setPump _ d⟩
        · refine .inr ⟨.payload d data, ?_⟩
          unfold observe
          dsimp only
          split <;> exact sink_setPump _ d
      · exact .inl (sink_setPump _ d)
      · exact .inl rfl
  | write d got =>
      unfold step
      dsimp only
      split
      · exact .inl (sink_setPump _ d)
      · exact .inl (sink_setPump _ d)
      · exact .inl rfl
  | join d => exact .inl (sink_join d)
  | pause => exact .inr ⟨.pause, rfl⟩
  | resume => exact .inr ⟨.resume, rfl⟩
  | close => exact .inr ⟨.close, rfl⟩

theorem step_calm (m : Move) (hcalm : sink.Calm r.sink) :
    sink.Calm (r.step sink now m).relay.sink := by
  have htells : (r.step sink now m).relay.sink = r.sink ∨
      ∃ e, (r.step sink now m).relay.sink = (r.session.handle sink now e r.sink).sink :=
    r.step_tells now m
  rcases htells with hsame | ⟨e, htold⟩
  · rw [hsame]
    exact hcalm
  · rw [htold]
    exact (Session.handle_calm now e r.session hcalm).2

/-- **A move does the same to two relays that differ in their captures.** -/
theorem step_of_wire (h : r.wire = r'.wire) (hcalm : sink.Calm r.sink) (hcalm' : sink'.Calm r'.sink)
    (m : Move) :
    (r.step sink now m).relay.wire = (r'.step sink' now' m).relay.wire ∧
      (r.step sink now m).traffic = (r'.step sink' now' m).traffic := by
  have hpump := pump_of_wire h
  cases m with
  | read d got =>
      simp only [step, hpump d]
      split
      · split
        · have htold : (r.tell sink now (.shutdown d)).2.relay.wire =
              (r'.tell sink' now' (.shutdown d)).2.relay.wire := h
          exact ⟨setPump_of_wire htold .ended d, rfl⟩
        · rename_i data _ _
          obtain ⟨hwire, htraffic⟩ := observe_calm now d data hcalm
          obtain ⟨hwire', htraffic'⟩ := observe_calm now' d data hcalm'
          rw [hwire, hwire', htraffic, htraffic']
          refine ⟨setPump_of_wire ?_ _ d, rfl⟩
          obtain ⟨hin, hout, hforwarded, hfailure⟩ := wire_eq_iff.mp h
          exact wire_eq_iff.mpr ⟨hin, hout, by rw [hforwarded], hfailure⟩
      · exact ⟨setPump_of_wire h _ d, rfl⟩
      · exact ⟨h, rfl⟩
  | write d got =>
      simp only [step, hpump d]
      split
      · exact ⟨setPump_of_wire h _ d, rfl⟩
      · exact ⟨setPump_of_wire h _ d, rfl⟩
      · exact ⟨h, rfl⟩
  | join d => exact ⟨join_of_wire h d, rfl⟩
  | pause => exact ⟨h, rfl⟩
  | resume => exact ⟨h, rfl⟩
  | close => exact ⟨h, rfl⟩

/-- A relay ends as its pumps did, unless its capture fails then. -/
theorem finish_calm (hcalm : sink.Calm r.sink) :
    ((r.finish sink now).1 = r.wire.verdict ∨ ∃ c, (r.finish sink now).1 = .failed (.capture c)) ∧
      (r.finish sink now).2.relay.wire = r.wire ∧ (r.finish sink now).2.traffic = [] := by
  have hpanic := fun e => (Session.handle_calm now e r.session hcalm).1
  unfold finish closeCapture tell
  split
  · rename_i e hfailure
    refine ⟨?_, rfl, rfl⟩
    dsimp only
    cases hresult : (r.session.handle sink now .error r.sink).result with
    | done => exact .inl (by simp only [Wire.verdict, wire, hfailure])
    | failed c => exact .inr ⟨c, rfl⟩
    | panicked => exact absurd hresult (hpanic .error)
  · rename_i hfailure
    refine ⟨?_, rfl, rfl⟩
    dsimp only
    cases hresult : (r.session.handle sink now .close r.sink).result with
    | done => exact .inl (by simp only [Wire.verdict, wire, hfailure])
    | failed c => exact .inr ⟨c, rfl⟩
    | panicked => exact absurd hresult (hpanic .close)

end Relay

namespace Transit

variable {σ τ : Type} {sink : Sink σ} {sink' : Sink τ} {w : σ} {w' : τ}

/-- Two relays under way that differ in their captures only, neither of which panics. -/
structure Alike (sink : Sink σ) (sink' : Sink τ) (t : Transit σ) (t' : Transit τ) : Prop where
  reads : t.reads = t'.reads
  traffic : t.traffic = t'.traffic
  wire : t.relay.wire = t'.relay.wire
  calm : sink.Calm t.relay.sink
  calm' : sink'.Calm t'.relay.sink

theorem Alike.step {t : Transit σ} {t' : Transit τ} (h : Alike sink sink' t t') (now now' : Timestamp)
    (m : Move) : Alike sink sink' (t.step sink now m) (t'.step sink' now' m) := by
  obtain ⟨hwire, htraffic⟩ := Relay.step_of_wire now now' h.wire h.calm h.calm' m
  refine ⟨?_, ?_, hwire, Relay.step_calm now m h.calm, Relay.step_calm now' m h.calm'⟩
  · change t.reads ++ _ = t'.reads ++ _
    rw [h.reads, Relay.bytesTaken_of_wire h.wire]
  · change t.traffic ++ _ = t'.traffic ++ _
    rw [h.traffic, htraffic]

theorem run_alike (hcalm : sink.Calm w) (hcalm' : sink'.Calm w') (connection connection' : Connection)
    (session session' : Session) (surroundings : Surroundings) (clock clock' : Nat → Timestamp) (n : Nat) :
    Alike sink sink' (run sink clock connection session surroundings w n)
      (run sink' clock' connection' session' surroundings w' n) := by
  induction n with
  | zero =>
      exact ⟨rfl, rfl, rfl, (Session.handle_calm (clock 0) _ session hcalm).2,
        (Session.handle_calm (clock' 0) _ session' hcalm').2⟩
  | succ n ih =>
      rw [run, run, ih.traffic, ih.wire]
      exact ih.step _ _ _

/-- **A capture never disturbs the relay that it is taken from.** With the same streams and the same
schedule around them, two relays do the same to their streams whatever their sessions are and whatever
their sinks answer. When the pumps are gone the results are the same as well, unless a capture fails. -/
theorem capture_never_disturbs (hcalm : sink.Calm w) (hcalm' : sink'.Calm w')
    (connection connection' : Connection) (session session' : Session) (surroundings : Surroundings)
    (clock clock' : Nat → Timestamp) (n : Nat) :
    let t := run sink clock connection session surroundings w n
    let t' := run sink' clock' connection' session' surroundings w' n
    let ends := t.relay.finish sink (clock (n + 1))
    let ends' := t'.relay.finish sink' (clock' (n + 1))
    t.reads = t'.reads ∧ t.traffic = t'.traffic ∧ t.relay.wire = t'.relay.wire ∧
      t.relay.isOver = t'.relay.isOver ∧
      (ends.1 = t.relay.wire.verdict ∨ ∃ c, ends.1 = .failed (.capture c)) ∧
      (ends'.1 = t.relay.wire.verdict ∨ ∃ c, ends'.1 = .failed (.capture c)) ∧
      ends.2.relay.wire = t.relay.wire ∧ ends'.2.relay.wire = t.relay.wire ∧
      ends.2.traffic = [] ∧ ends'.2.traffic = [] := by
  have halike := run_alike hcalm hcalm' connection connection' session session' surroundings clock clock' n
  dsimp only
  obtain ⟨hresult, hwire, htraffic⟩ := Relay.finish_calm (clock (n + 1)) halike.calm
  obtain ⟨hresult', hwire', htraffic'⟩ := Relay.finish_calm (clock' (n + 1)) halike.calm'
  rw [← halike.wire] at hresult' hwire'
  refine ⟨halike.reads, halike.traffic, halike.wire, ?_, hresult, hresult', hwire, hwire', htraffic,
    htraffic'⟩
  obtain ⟨hin, hout, -, -⟩ := Relay.wire_eq_iff.mp halike.wire
  rw [Relay.isOver, Relay.isOver, hin, hout]

/-- The client sends two bytes and stops, the service stops after it, and whatever a pump waits for comes
about at once. -/
def twoBytes : Surroundings := fun traffic x =>
  match x.inbound, x.outbound, traffic with
  | .sending rest, _, _ => .write .inbound (.ok rest.size)
  | .reading, _, [] => .read .inbound (.ok ⟨#[97, 98]⟩)
  | .reading, _, _ => .read .inbound (.ok .empty)
  | .gone, .reading, _ => .read .outbound (.ok .empty)
  | .gone, _, _ => .join .outbound
  | _, _, _ => .join .inbound

/-- Two batches go through, then the disk is full. -/
def filledDisk : Rehearsed := { answers := [.ok, .ok, .ok, .ok, .failed (.bare .writeZero)] }

theorem capture_never_disturbs_filled :
    let connection : Connection := ⟨.v4 ⟨10, 0, 0, 2⟩ 80, some (.v4 ⟨10, 0, 0, 1⟩ 4000), .tcp true⟩
    let session := Session.create { id := "relayed" }
    let t := run Sink.rehearsed (fun _ => .epoch) connection session twoBytes filledDisk 6
    let t' := run Sink.recording (fun _ => .epoch) connection session twoBytes [] 6
    t.reads = t'.reads ∧ t.traffic = t'.traffic ∧ t.relay.wire = t'.relay.wire ∧
      t.relay.isOver = true ∧ t.relay.forwarded = ⟨2, 0⟩ ∧
      (t.relay.finish Sink.rehearsed .epoch).1 = .failed (.capture (.write (.bare .writeZero))) ∧
      (t'.relay.finish Sink.recording .epoch).1 = .done := by
  have hcalm : Sink.rehearsed.Calm filledDisk := Sink.rehearsed_calm (by decide)
  obtain ⟨hreads, htraffic, hwire, -⟩ := capture_never_disturbs hcalm (Session.recording_calm [])
    ⟨.v4 ⟨10, 0, 0, 2⟩ 80, some (.v4 ⟨10, 0, 0, 1⟩ 4000), .tcp true⟩
    ⟨.v4 ⟨10, 0, 0, 2⟩ 80, some (.v4 ⟨10, 0, 0, 1⟩ 4000), .tcp true⟩
    (Session.create { id := "relayed" }) (Session.create { id := "relayed" }) twoBytes
    (fun _ => .epoch) (fun _ => .epoch) 6
  exact ⟨hreads, htraffic, hwire, by decide, by decide, by decide, by decide⟩

end Transit

end Wiretap
