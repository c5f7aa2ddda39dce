import Wiretap.Proofs.Trace
import Wiretap.Proofs.Writer

/-! Failures interrupt a run and do nothing else. Against any sink that does not panic a run makes the
calls of the run without failures up to the first that fails, tries to close a sink of its own after it,
and reports that one failure. What a destination holds is therefore always a beginning of the capture
that it would have held. -/

namespace Wiretap

/-- A call of the run of `xs ++ x :: ys` failed, the first one to fail, while the session was told of
`x`. The run without failures makes the given calls. -/
structure Interrupted {σ : Type} (s : Session) (sink : Sink σ) (w : σ) (calls : List SinkCall)
    (xs : List TimedEvent) (x : TimedEvent) (ys : List TimedEvent) (before : List SinkCall)
    (c : SinkCall) (error : IoError) (last : List Answer) : Prop where
  /-- The calls up to the failing one are those of the run without failures. -/
  follows : ∃ rest, List.Forall₂ SinkCall.Alike (before ++ c :: rest) calls
  /-- All before it went well, and only the last words come after it. -/
  trace : (s.run sink.traced (xs ++ x :: ys) (w, [])).sink.2 =
    last ++ (c, .failed error) :: successes before
  lastWords : Sink.LastWords s.options.shared c last
  /-- The failure is reported once, at the event during which it came about. -/
  results : (s.run sink.traced (xs ++ x :: ys) (w, [])).results =
    List.replicate xs.length .done ++ .failed (.ofCall c error) :: List.replicate ys.length .done
  unharmed : ∀ a ∈ (s.run sink.traced xs (w, [])).sink.2, a.2 = .ok
  untouched : (s.run sink.traced (xs ++ x :: ys) (w, [])).sink =
    (s.run sink.traced (xs ++ [x]) (w, [])).sink
  closed : (s.run sink.traced (xs ++ [x]) (w, [])).session.phase = .closed ∧
    (s.run sink.traced (xs ++ x :: ys) (w, [])).session.phase = .closed

namespace Session

variable {σ : Type} {sink : Sink σ} {w : σ}

theorem successes_ok {calls : List SinkCall} : ∀ a ∈ successes calls, a.2 = .ok := by
  intro a ha
  obtain ⟨c, -, rfl⟩ := List.mem_map.mp (List.mem_reverse.mp ha)
  rfl

theorem successes_calls (calls : List SinkCall) :
    (successes calls).reverse.map Prod.fst = calls := by
  rw [successes, List.reverse_reverse, List.map_map]
  exact List.map_id _

/-- A run stops where its first events stop. -/
theorem interrupted_of_stops {events events' : List TimedEvent} {s : Session}
    (hcalm : sink.Calm w) (hsame : events.map Prod.snd = events'.map Prod.snd)
    (hstops : s.Stops sink.traced events (w, []) (s.run sink.traced events (w, []))) :
    ∃ xs x ys before c error last, events = xs ++ x :: ys ∧
      Interrupted s sink w (s.intended events') xs x ys before c error last := by
  obtain ⟨xs, now, e, ys, before, c, error, rest, last, rfl, hintended, hlast, htrace, hresults,
    hclosed⟩ := stops_trace hstops
  have htraced := hcalm.traced []
  have hfollows := intended_alike hsame s
  rw [hintended] at hfollows
  have hsplit : xs ++ (now, e) :: ys = (xs ++ [(now, e)]) ++ ys := by simp
  -- the events before the failing one, and these with it
  have hfirst : (s.run sink.traced xs (w, [])).results = List.replicate xs.length .done :=
    run_results_prefix hresults (List.length_replicate ..)
  have hsecond : (s.run sink.traced (xs ++ [(now, e)]) (w, [])).results =
      List.replicate xs.length .done ++ [.failed (.ofCall c error)] := by
    have hwhole : (s.run sink.traced ((xs ++ [(now, e)]) ++ ys) (w, [])).results =
        (List.replicate xs.length .done ++ [.failed (.ofCall c error)]) ++
          List.replicate ys.length .done := by
      rw [← hsplit, hresults]
      simp
    exact run_results_prefix hwhole (by simp)
  have hcompletes : s.Completes sink.traced xs (w, []) (s.run sink.traced xs (w, [])) := by
    apply completes_of_done htraced
    intro r hr
    rw [hfirst] at hr
    exact List.eq_of_mem_replicate hr
  have hfailed : .failed (.ofCall c error) ∈
      (s.run sink.traced (xs ++ [(now, e)]) (w, [])).results := by
    rw [hsecond]
    exact List.mem_append_right _ List.mem_cons_self
  have hafter := run_after_failure ys htraced hfailed
  refine ⟨xs, (now, e), ys, before, c, error, last, rfl, ⟨rest, hfollows⟩, htrace, hlast, hresults,
    ?_, ?_, hafter.2, hclosed⟩
  · rw [completes_trace hcompletes]
    exact successes_ok
  · rw [hsplit]
    exact hafter.1

/-- The destination of a writer sink holds the beginning of what the run would have written, and all of
it if nothing failed. -/
theorem run_writer_contents (events : List TimedEvent) (s : Session) {w : WriterSink}
    (hcalm : w.destination.Calm) (hempty : w.destination.contents = []) :
    (s.run Sink.writer events w).sink.destination.contents <+: written (s.intended events) ∧
      ((∀ r ∈ (s.run Sink.writer events w).results, r = .done) →
        (s.run Sink.writer events w).sink.destination.contents = written (s.intended events)) := by
  have hw := Sink.writer_calm hcalm
  have hcomplete : s.Completes Sink.writer events w (s.run Sink.writer events w) →
      (s.run Sink.writer events w).sink.destination.contents = written (s.intended events) := by
    rintro ⟨w', hsucceeds, hcourse⟩
    have hleave : Sink.writer.leave s (s.planAll (events.map Prod.snd)).session w' = w' := ite_self w'
    rw [hcourse, hleave, hsucceeds.writer_contents, hempty, List.nil_append]
  refine ⟨?_, fun hdone => hcomplete (completes_of_done hw hdone)⟩
  rcases run_completes_or_stops events s hw with hcompletes | hstops
  · exact ⟨[], by rw [List.append_nil, hcomplete hcompletes]⟩
  · obtain ⟨xs, now, e, ys, error, x, rfl, hsucceeds, hbreaks, -⟩ := hstops
    obtain ⟨part, hpart, hcontents⟩ := hbreaks.writer_contents
    rw [hcontents, hsucceeds.writer_contents, hempty, List.nil_append, intended_append,
      intended_cons, written_append, written_append, List.prefix_append_right_inj]
    exact hpart.trans (List.prefix_append _ _)

/-- **A failure cuts a run short and does nothing else.** Whatever calm sink it is told to, a session makes
the calls of the run without failures, whose clock may differ, or is interrupted at the first failure; and
what a destination of its own holds is a beginning of the capture without failures, to which nothing is
added after a failure. -/
theorem run_until_failure (options : Options) {events events' : List TimedEvent}
    (hsame : events.map Prod.snd = events'.map Prod.snd) :
    let ideal := (create options).run Sink.recording events' []
    let calls := ideal.sink.reverse
    (∀ {σ : Type} (sink : Sink σ) (w : σ), sink.Calm w →
      let course := (create options).run sink.traced events (w, [])
      (List.Forall₂ SinkCall.Alike (course.sink.2.reverse.map Prod.fst) calls ∧
        (∀ a ∈ course.sink.2, a.2 = .ok) ∧
        course.results = List.replicate events.length .done ∧ course.session = ideal.session) ∨
      ∃ xs x ys before c error last, events = xs ++ x :: ys ∧
        Interrupted (create options) sink w calls xs x ys before c error last) ∧
    ∀ d : Destination, d.Calm → d.contents = [] →
      let file := written ((create options).run Sink.recording events []).sink.reverse
      let course := (create options).run Sink.writer events { destination := d }
      course.sink.destination.contents <+: file ∧
      ((∀ r ∈ course.results, r = .done) → course.sink.destination.contents = file) ∧
      ∀ xs ys error, events = xs ++ ys →
        .failed error ∈ ((create options).run Sink.writer xs { destination := d }).results →
        course.sink = ((create options).run Sink.writer xs { destination := d }).sink := by
  dsimp only
  constructor
  · intro σ sink w hcalm
    rw [run_recording_calls]
    rcases run_completes_or_stops events (create options) (hcalm.traced []) with
      hcompletes | hstops
    · left
      have htrace := completes_trace hcompletes
      obtain ⟨w', -, hcourse⟩ := hcompletes
      rw [htrace, successes_calls]
      refine ⟨intended_alike hsame _, successes_ok, by rw [hcourse], ?_⟩
      rw [hcourse, run_recording, ← hsame]
    · right
      exact interrupted_of_stops hcalm hsame hstops
  · intro d hd hempty
    rw [run_recording_calls]
    obtain ⟨hbegins, hfull⟩ := run_writer_contents events (create options)
      (w := { destination := d }) hd hempty
    refine ⟨hbegins, hfull, ?_⟩
    rintro xs ys error rfl hfailed
    exact (run_after_failure ys (Sink.writer_calm hd) hfailed).1

/-- A session with a sink of its own that is opened, told of one payload and closed. -/
def briefOptions : Options :=
  { id := "brief", forced := some (.tcp (.v4 ⟨10, 0, 0, 2⟩ 80) (.v4 ⟨10, 0, 0, 1⟩ 4000) true) }

def briefEvents (now : Timestamp) : List TimedEvent :=
  [(now, .active none), (now, .payload .inbound ⟨#[97, 98]⟩), (now, .close)]

/-- The pipe breaks while the payload is flushed. -/
def brokenPipe : Rehearsed := { answers := [.ok, .ok, .ok, .failed (.bare .brokenPipe)] }

/-- Takes thirty bytes, is interrupted, and takes no more. -/
def fullDisk : Destination :=
  { writes := [.atMost 30, .fails (.bare .interrupted), .atMost 0] }

theorem run_until_failure_brief :
    let calls := ((create briefOptions).run Sink.recording
      (briefEvents ⟨1, 0, by decide, by decide⟩) []).sink.reverse
    (∃ xs x ys before c error last, briefEvents .epoch = xs ++ x :: ys ∧
      Interrupted (create briefOptions) Sink.rehearsed brokenPipe calls xs x ys before c error
        last) ∧
      ((create briefOptions).run Sink.writer (briefEvents .epoch)
          { destination := fullDisk }).sink.destination.contents <+:
        written ((create briefOptions).run Sink.recording (briefEvents .epoch) []).sink.reverse := by
  have hsame : (briefEvents .epoch).map Prod.snd =
      (briefEvents ⟨1, 0, by decide, by decide⟩).map Prod.snd := rfl
  obtain ⟨hsinks, hdestinations⟩ := run_until_failure briefOptions hsame
  refine ⟨?_, (hdestinations fullDisk (by simp [Destination.Calm, fullDisk]) rfl).1⟩
  rcases hsinks Sink.rehearsed brokenPipe (Sink.rehearsed_calm (by simp [brokenPipe])) with
    ⟨-, -, hresults, -⟩ | hinterrupted
  · exact absurd hresults (by decide)
  · exact hinterrupted

end Session

end Wiretap
