import Wiretap.Proofs.Course
import Mathlib.Data.List.Forall2

/-! Traces: the calls that a session makes of any sink, each with what it came to. A sink is traced by
keeping them beside its state, which changes nothing of what it answers. A run against a sink that does
not panic leaves one of two traces: the calls that are intended, all of them successful; or some of
these, the first that failed, and one more call to close a sink of the session's own. -/

namespace Wiretap

/-- A call and what it came to. -/
abbrev Answer := SinkCall × Outcome

/-- Answers as another sink does and keeps the calls, the last one first. -/
def Sink.traced {σ : Type} (sink : Sink σ) : Sink (σ × List Answer) where
  call c w := ((sink.call c w.1).1, (sink.call c w.1).2, (c, (sink.call c w.1).1) :: w.2)
  release w := (sink.release w.1, w.2)

/-- Calls that succeed, in the order of a trace. -/
def successes (calls : List SinkCall) : List Answer := (calls.map fun c => (c, .ok)).reverse

namespace Sink

variable {σ : Type} {sink : Sink σ}

theorem Reaches.of_traced {w x : σ × List Answer} (h : sink.traced.Reaches w x) :
    sink.Reaches w.1 x.1 := by
  induction h with
  | refl => exact .refl
  | call c _ ih => exact .call c ih
  | release _ ih => exact .release ih

theorem Calm.traced {w : σ} (h : sink.Calm w) (log : List Answer) :
    sink.traced.Calm (w, log) := by
  rintro ⟨c, x, hx, hpanic⟩
  exact h ⟨c, x.1, hx.of_traced, hpanic⟩

theorem traced_call_iff {c : SinkCall} {o : Outcome} {w x : σ × List Answer} :
    sink.traced.call c w = (o, x) ↔ sink.call c w.1 = (o, x.1) ∧ x.2 = (c, o) :: w.2 := by
  obtain ⟨x, log⟩ := x
  simp only [traced, Prod.ext_iff]
  constructor
  · rintro ⟨rfl, rfl, rfl⟩
    exact ⟨⟨rfl, rfl⟩, rfl⟩
  · rintro ⟨⟨rfl, rfl⟩, rfl⟩
    exact ⟨rfl, rfl, rfl⟩

/-- An append is a write, and a flush if that went well. -/
theorem append_traced (sink : Sink σ) (bytes : Bytes) (w : σ × List Answer) :
    ∃ o more, (sink.traced.append bytes w).2.2 = more ++ (.write bytes, o) :: w.2 ∧
      ∀ a ∈ more, a.1 = .flush := by
  rw [append]
  rcases hwrite : sink.traced.call (.write bytes) w with ⟨o, x⟩
  have hlog := (traced_call_iff.mp hwrite).2
  refine ⟨o, ?_⟩
  rw [← hlog]
  cases o with
  | ok => exact ⟨[(.flush, (sink.call .flush x.1).1)], rfl, List.forall_mem_singleton.mpr rfl⟩
  | failed e => exact ⟨[], rfl, List.forall_mem_nil _⟩
  | panicked => exact ⟨[], rfl, List.forall_mem_nil _⟩

theorem Succeeds.of_traced {calls : List SinkCall} {w x : σ × List Answer}
    (h : sink.traced.Succeeds calls w x) :
    sink.Succeeds calls w.1 x.1 ∧ x.2 = successes calls ++ w.2 := by
  induction calls generalizing w with
  | nil =>
      rw [Succeeds] at h
      rw [h]
      exact ⟨rfl, rfl⟩
  | cons c calls ih =>
      obtain ⟨y, hy, h⟩ := h
      obtain ⟨hcall, hlog⟩ := traced_call_iff.mp hy
      obtain ⟨hsucceeds, hlog'⟩ := ih h
      refine ⟨⟨y.1, hcall, hsucceeds⟩, ?_⟩
      rw [hlog', hlog]
      simp [successes]

/-- What is left in the trace after a call that failed: the close of a sink of the session's own. -/
def LastWords (shared : Bool) (c : SinkCall) (log : List Answer) : Prop :=
  if shared = false ∧ c ≠ .close then ∃ o, log = [(.close, o)] else log = []

theorem giveUp_traced (sink : Sink σ) (shared : Bool) (c : SinkCall) (w : σ × List Answer) :
    ∃ last, LastWords shared c last ∧ (sink.traced.giveUp shared c w).2 = last ++ w.2 := by
  unfold giveUp LastWords
  by_cases hquiet : shared = true ∨ c = .close
  · rw [if_pos hquiet]
    refine ⟨[], ?_, rfl⟩
    rw [if_neg]
    rintro ⟨hshared, hc⟩
    rcases hquiet with h | h
    · exact absurd (h.symm.trans hshared) (by decide)
    · exact hc h
  · rw [if_neg hquiet]
    rw [not_or, Bool.not_eq_true] at hquiet
    refine ⟨[(.close, (sink.call .close w.1).1)], ?_, rfl⟩
    rw [if_pos hquiet]
    exact ⟨_, rfl⟩

theorem Breaks.of_traced {shared : Bool} {calls : List SinkCall} {w x : σ × List Answer}
    {error : CaptureError} (h : sink.traced.Breaks shared calls w error x) :
    ∃ before c after e last, calls = before ++ c :: after ∧ error = .ofCall c e ∧
      LastWords shared c last ∧ x.2 = last ++ (c, .failed e) :: (successes before ++ w.2) := by
  obtain ⟨before, c, after, e, y, z, hcalls, hbefore, hfails, herror, rfl⟩ := h
  obtain ⟨last, hlast, hlog⟩ := giveUp_traced sink shared c z
  refine ⟨before, c, after, e, last, hcalls, herror, hlast, ?_⟩
  rw [hlog, (traced_call_iff.mp hfails).2, hbefore.of_traced.2]

theorem rehearsed_call_calm {w : Rehearsed} (h : .panicked ∉ w.answers) (c : SinkCall) :
    (Sink.rehearsed.call c w).1 ≠ .panicked ∧
      .panicked ∉ (Sink.rehearsed.call c w).2.answers := by
  obtain ⟨calls, answers⟩ := w
  cases answers with
  | nil => exact ⟨Outcome.noConfusion, h⟩
  | cons o rest =>
      refine ⟨fun hpanic => h ?_, fun hpanic => h (List.mem_cons_of_mem o hpanic)⟩
      have ho : o = .panicked := hpanic
      rw [ho]
      exact List.mem_cons_self

/-- Prepared answers without a panic make a calm sink. -/
theorem rehearsed_calm {w : Rehearsed} (h : .panicked ∉ w.answers) : Sink.rehearsed.Calm w := by
  have hreached : ∀ {x}, Sink.rehearsed.Reaches w x → .panicked ∉ x.answers := by
    intro x hx
    induction hx with
    | refl => exact h
    | call c _ ih => exact (rehearsed_call_calm ih c).2
    | release _ ih => exact ih
  rintro ⟨c, x, hx, hpanic⟩
  exact (rehearsed_call_calm (hreached hx) c).1 hpanic

end Sink

/-! ### Clocks -/

/-- The same call but for the times in the records that it writes, with or without the header of the file
before them. -/
inductive SinkCall.Alike : SinkCall → SinkCall → Prop
  | write (header : Bool) (rs rs' : List Record) (hframes : rs.map Record.frame = rs'.map Record.frame) :
      Alike (.write ((if header then CaptureFile.header else []) ++ CaptureFile.encode rs))
        (.write ((if header then CaptureFile.header else []) ++ CaptureFile.encode rs'))
  | flush : Alike .flush .flush
  | close : Alike .close .close

theorem Act.content_alike (now now' : Timestamp) (header : Bool) (packets : List Packet) :
    SinkCall.Alike (.write (content now header packets)) (.write (content now' header packets)) := by
  refine .write header _ _ ?_
  rw [List.map_map, List.map_map]
  rfl

theorem Act.calls_alike (now now' : Timestamp) (a : Act) :
    List.Forall₂ SinkCall.Alike (a.calls now) (a.calls now') := by
  cases a with
  | append header packets => exact .cons (content_alike now now' header packets) (.cons .flush .nil)
  | close => exact .cons .close .nil

theorem Plan.calls_alike (now now' : Timestamp) (p : Plan) :
    List.Forall₂ SinkCall.Alike (p.calls now) (p.calls now') := by
  rw [Plan.calls, Plan.calls]
  induction p.acts with
  | nil => exact .nil
  | cons a acts ih => exact List.rel_append (a.calls_alike now now') ih

namespace Session

/-- What a session intends depends on the clock in nothing but the times of its records. -/
theorem intended_alike {events events' : List TimedEvent}
    (hsame : events.map Prod.snd = events'.map Prod.snd) (s : Session) :
    List.Forall₂ SinkCall.Alike (s.intended events) (s.intended events') := by
  induction events generalizing events' s with
  | nil =>
      rw [List.map_eq_nil_iff.mp hsame.symm]
      exact .nil
  | cons x events ih =>
      obtain ⟨now, e⟩ := x
      obtain ⟨⟨now', e'⟩, rest, rfl, rfl, hrest⟩ := List.map_eq_cons_iff.mp hsame.symm
      rw [intended_cons, intended_cons]
      exact List.rel_append ((s.plan e').calls_alike now now') (ih hrest.symm _)

/-! ### Runs -/

variable {σ : Type} {sink : Sink σ}

theorem leave_traced (s after : Session) (w : σ × List Answer) :
    (sink.traced.leave s after w).2 = w.2 := by
  unfold Sink.leave
  split <;> rfl

/-- The trace of a run in which no call fails. -/
theorem completes_trace {events : List TimedEvent} {s : Session} {w : σ} {course : Course _}
    (h : s.Completes sink.traced events (w, []) course) :
    course.sink.2 = successes (s.intended events) := by
  obtain ⟨w', hsucceeds, rfl⟩ := h
  rw [leave_traced, hsucceeds.of_traced.2, List.append_nil]

/-- The trace of a run that a failure stops. -/
theorem stops_trace {events : List TimedEvent} {s : Session} {w : σ} {course : Course _}
    (h : s.Stops sink.traced events (w, []) course) :
    ∃ xs now e ys before c error rest last, events = xs ++ (now, e) :: ys ∧
      s.intended events = before ++ c :: rest ∧ Sink.LastWords s.options.shared c last ∧
      course.sink.2 = last ++ (c, .failed error) :: successes before ∧
      course.results = List.replicate xs.length .done ++ .failed (.ofCall c error) ::
        List.replicate ys.length .done ∧
      course.session.phase = .closed := by
  obtain ⟨xs, now, e, ys, error, x, rfl, hsucceeds, hbreaks, hresults, hphase, -⟩ := h
  obtain ⟨before, c, after, error, last, hcalls, rfl, hlast, hlog⟩ := hbreaks.of_traced
  refine ⟨xs, now, e, ys, s.intended xs ++ before, c, error,
    after ++ ((s.planAll (xs.map Prod.snd)).session.plan e).session.intended ys, last, rfl, ?_,
    hlast, ?_, hresults, hphase⟩
  · rw [intended_append, intended_cons, hcalls]
    simp only [List.append_assoc, List.cons_append]
  · rw [hlog, hsucceeds.of_traced.2]
    simp [successes]

/-- **The recording sink stands for every sink that never fails.** -/
theorem run_never_fails (hok : ∀ c w, (sink.call c w).1 = .ok) (events : List TimedEvent)
    (s : Session) (w : σ) :
    let course := s.run sink.traced events (w, [])
    let ideal := s.run Sink.recording events []
    course.results = ideal.results ∧ course.session = ideal.session ∧
      course.sink.2 = ideal.sink.map fun c => (c, .ok) := by
  have hcalm : sink.Calm w := by
    rintro ⟨c, x, -, hpanic⟩
    rw [hok] at hpanic
    cases hpanic
  dsimp only
  rw [run_recording, List.append_nil]
  rcases run_completes_or_stops events s (hcalm.traced []) with hcompletes | hstops
  · have htrace := completes_trace hcompletes
    obtain ⟨w', -, hcourse⟩ := hcompletes
    refine ⟨by rw [hcourse], by rw [hcourse], ?_⟩
    rw [htrace, successes, List.map_reverse]
  · obtain ⟨xs, now, e, ys, error, x, -, -, ⟨before, c, after, e', y, z, -, -, hfails, -⟩, -⟩ := hstops
    have hcall := (Sink.traced_call_iff.mp hfails).1
    have hfailed := hok c y.1
    rw [hcall] at hfailed
    cases hfailed

end Session

end Wiretap
