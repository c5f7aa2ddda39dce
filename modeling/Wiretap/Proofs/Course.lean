import Wiretap.Proofs.Obedience
import Wiretap.Proofs.Paths

/-! Runs: a session that is told one event after another. Against a sink that never fails a run makes
exactly the calls that its plans intend. Against any other sink that does not panic it makes the same
calls up to the first one that fails; the event during which that happens is the only one with an error,
and the session is closed from then on. -/

namespace Wiretap

/-- An event and when it came about. -/
abbrev TimedEvent := Timestamp × Event

/-- What a run came to: the results of its operations, and the session and the sink after it. -/
structure Course (σ : Type) where
  results : List Result
  session : Session
  sink : σ

namespace Session

def run {σ : Type} (sink : Sink σ) : List TimedEvent → Session → σ → Course σ
  | [], s, w => ⟨[], s, w⟩
  | (now, e) :: rest, s, w =>
    let r := s.handle sink now e w
    let course := run sink rest r.session r.sink
    { course with results := r.result :: course.results }

/-- The plan of all events one after another. -/
def planAll : List Event → Session → Plan
  | [], s => s.planNothing
  | e :: es, s => (s.plan e).andThen (planAll es)

/-- What is asked of the sink over a run, each act at the time of its event. -/
def timedActs : List TimedEvent → Session → List (Timestamp × Act)
  | [], _ => []
  | (now, e) :: rest, s =>
    (s.plan e).acts.map (fun a => (now, a)) ++ timedActs rest (s.plan e).session

/-- The calls that a run makes if none of them fails. -/
def intended (events : List TimedEvent) (s : Session) : List SinkCall :=
  (s.timedActs events).flatMap fun x => x.2.calls x.1

@[simp] theorem intended_nil (s : Session) : s.intended [] = [] := rfl

@[simp] theorem intended_cons (now : Timestamp) (e : Event) (rest : List TimedEvent) (s : Session) :
    s.intended ((now, e) :: rest) = (s.plan e).calls now ++ (s.plan e).session.intended rest := by
  simp [intended, timedActs, Plan.calls, List.flatMap_map]

/-- The acts of a run do not depend on when its events come about. -/
theorem timedActs_acts (events : List TimedEvent) (s : Session) :
    (s.timedActs events).map Prod.snd = (s.planAll (events.map Prod.snd)).acts := by
  induction events generalizing s with
  | nil => rfl
  | cons x rest ih =>
      obtain ⟨now, e⟩ := x
      simp only [timedActs, List.map_append, List.map_map, List.map_cons, planAll, Plan.andThen, ih]
      congr 1
      exact List.map_id _

theorem planAll_append (es fs : List Event) (s : Session) :
    s.planAll (es ++ fs) = (s.planAll es).andThen (planAll fs) := by
  induction es generalizing s with
  | nil => rfl
  | cons e es ih => simp [planAll, Plan.andThen, ih]

theorem planAll_path (es : List Event) (s : Session) : SessionPath s (s.planAll es) := by
  induction es generalizing s with
  | nil => exact .nil s
  | cons e es ih => exact (s.plan_path e).andThen (ih _)

theorem timedActs_append (xs ys : List TimedEvent) (s : Session) :
    s.timedActs (xs ++ ys) =
      s.timedActs xs ++ (s.planAll (xs.map Prod.snd)).session.timedActs ys := by
  induction xs generalizing s with
  | nil => rfl
  | cons x xs ih =>
      obtain ⟨now, e⟩ := x
      rw [List.cons_append, timedActs, ih, timedActs, List.append_assoc]
      rfl

theorem intended_append (xs ys : List TimedEvent) (s : Session) :
    s.intended (xs ++ ys) =
      s.intended xs ++ (s.planAll (xs.map Prod.snd)).session.intended ys := by
  rw [intended, timedActs_append, List.flatMap_append]
  rfl

theorem run_append {σ : Type} (sink : Sink σ) (xs ys : List TimedEvent) (s : Session) (w : σ) :
    s.run sink (xs ++ ys) w =
      let first := s.run sink xs w
      let second := first.session.run sink ys first.sink
      { second with results := first.results ++ second.results } := by
  induction xs generalizing s w with
  | nil => rfl
  | cons x xs ih =>
      obtain ⟨now, e⟩ := x
      simp only [List.cons_append, run, ih]

/-! ### Against a sink that never fails -/

theorem recording_succeeds_iff {calls log log' : List SinkCall} :
    Sink.recording.Succeeds calls log log' ↔ log' = calls.reverse ++ log := by
  induction calls generalizing log with
  | nil => rfl
  | cons c cs ih => simp [Sink.Succeeds, Sink.recording, ← ih]

theorem recording_calm (log : List SinkCall) : ¬Sink.recording.CanPanic log := by
  rintro ⟨c, w, -, h⟩
  cases h

theorem recording_unbroken {shared : Bool} {calls log log' : List SinkCall} {e : CaptureError} :
    ¬Sink.recording.Breaks shared calls log e log' := by
  rintro ⟨before, c, after, e, x, y, -, -, h, -⟩
  cases h

theorem handle_recording (now : Timestamp) (e : Event) (s : Session) (log : List SinkCall) :
    (s.handle Sink.recording now e log).result = .done ∧
      (s.handle Sink.recording now e log).session = (s.plan e).session ∧
      (s.handle Sink.recording now e log).sink = ((s.plan e).calls now).reverse ++ log := by
  cases handle_carries Sink.recording now e s log with
  | done hcalls hresult hsession hsink =>
      refine ⟨hresult, hsession, ?_⟩
      rw [hsink, ← recording_succeeds_iff.mp hcalls]
      exact ite_self _
  | failed hbreaks => exact absurd hbreaks recording_unbroken
  | panicked hpanic => exact absurd hpanic (recording_calm log)

/-- **A run against a sink that never fails makes the calls that are intended.** -/
theorem run_recording (events : List TimedEvent) (s : Session) (log : List SinkCall) :
    s.run Sink.recording events log =
      ⟨List.replicate events.length .done, (s.planAll (events.map Prod.snd)).session,
        (s.intended events).reverse ++ log⟩ := by
  induction events generalizing s log with
  | nil => rfl
  | cons x rest ih =>
      obtain ⟨now, e⟩ := x
      obtain ⟨hresult, hsession, hsink⟩ := handle_recording now e s log
      simp [run, hresult, hsession, hsink, ih, planAll, Plan.andThen, List.replicate_succ]

theorem run_recording_calls (events : List TimedEvent) (s : Session) :
    (s.run Sink.recording events []).sink.reverse = s.intended events := by
  rw [run_recording, List.append_nil, List.reverse_reverse]

/-! ### Against a sink that may fail -/

theorem intended_released (events : List TimedEvent) {s : Session} (hs : s.holdsSink = false) :
    s.intended events = [] ∧ (s.planAll (events.map Prod.snd)).session.holdsSink = false := by
  have hreleased := (planAll_path (events.map Prod.snd) s).released hs
  refine ⟨?_, hreleased.2⟩
  have hacts := (timedActs_acts events s).trans hreleased.1
  rw [List.map_eq_nil_iff] at hacts
  rw [intended, hacts, List.flatMap_nil]

end Session

variable {σ : Type} {sink : Sink σ}

/-- No call of a calm sink panics, now or later. -/
def Sink.Calm (sink : Sink σ) (w : σ) : Prop := ¬sink.CanPanic w

theorem Sink.Calm.of_reaches {w x : σ} (h : sink.Calm w) (hx : sink.Reaches w x) : sink.Calm x :=
  fun hpanic => h (hpanic.of_reaches sink hx)

theorem Sink.Reaches.leave {w x : σ} (h : sink.Reaches w x) (s after : Session) :
    sink.Reaches w (sink.leave s after x) := by
  unfold Sink.leave
  split
  · exact .release h
  · exact h

/-- What a run comes to that no failure stops. -/
def Session.Completes (sink : Sink σ) (events : List TimedEvent) (s : Session) (w : σ)
    (course : Course σ) : Prop :=
  ∃ w', sink.Succeeds (s.intended events) w w' ∧
    course = ⟨List.replicate events.length .done, (s.planAll (events.map Prod.snd)).session,
      sink.leave s (s.planAll (events.map Prod.snd)).session w'⟩

/-- What a run comes to that a failure stops: all goes well before one event, during which a call fails,
and nothing is asked of the sink after it. -/
def Session.Stops (sink : Sink σ) (events : List TimedEvent) (s : Session) (w : σ)
    (course : Course σ) : Prop :=
  ∃ before now e after error x, events = before ++ (now, e) :: after ∧
    sink.Succeeds (s.intended before) w x ∧
    sink.Breaks s.options.shared
      (((s.planAll (before.map Prod.snd)).session.plan e).calls now) x error course.sink ∧
    course.results = List.replicate before.length .done ++ .failed error ::
      List.replicate after.length .done ∧
    course.session.phase = .closed ∧ course.session.holdsSink = false

namespace Session

theorem handle_released (now : Timestamp) (e : Event) {s : Session} {w : σ} (hcalm : sink.Calm w)
    (hs : s.holdsSink = false) :
    (s.handle sink now e w).result = .done ∧
      (s.handle sink now e w).session = (s.plan e).session ∧ (s.handle sink now e w).sink = w := by
  have hreleased := (s.plan_path e).released hs
  have hnone : (s.plan e).calls now = [] := by rw [Plan.calls, hreleased.1, List.flatMap_nil]
  have hcarries := handle_carries sink now e s w
  rw [Carries, hnone] at hcarries
  cases hcarries with
  | done hcalls hresult hsession hsink =>
      refine ⟨hresult, hsession, ?_⟩
      rw [hsink, Sink.leave, if_neg (by simp [hs])]
      exact hcalls
  | failed hbreaks =>
      obtain ⟨before, c, after, -, -, -, hsplit, -⟩ := hbreaks
      simp at hsplit
  | panicked hpanic => exact absurd hpanic hcalm

theorem run_released (events : List TimedEvent) {s : Session} {w : σ} (hcalm : sink.Calm w)
    (hs : s.holdsSink = false) :
    s.run sink events w =
      ⟨List.replicate events.length .done, (s.planAll (events.map Prod.snd)).session, w⟩ := by
  induction events generalizing s with
  | nil => rfl
  | cons x rest ih =>
      obtain ⟨now, e⟩ := x
      obtain ⟨hresult, hsession, hsink⟩ := handle_released now e hcalm hs
      simp only [run, hresult, hsession, hsink, ih ((s.plan_path e).released hs).2]
      rfl

/-- A run that its first event stops. -/
theorem stops_of_failed {now : Timestamp} {e : Event} (rest : List TimedEvent) {s : Session} {w : σ}
    {error : CaptureError} (hcalm : sink.Calm w)
    (hbreaks : sink.Breaks s.options.shared ((s.plan e).calls now) w error
      (s.handle sink now e w).sink)
    (hresult : (s.handle sink now e w).result = .failed error)
    (hphase : (s.handle sink now e w).session.phase = .closed)
    (hholds : (s.handle sink now e w).session.holdsSink = false) :
    s.Stops sink ((now, e) :: rest) w (s.run sink ((now, e) :: rest) w) := by
  have hrun := run_released rest (hcalm.of_reaches (hbreaks.reaches sink)) hholds
  have hpath := planAll_path (rest.map Prod.snd) (s.handle sink now e w).session
  refine ⟨[], now, e, rest, error, w, rfl, rfl, ?_, ?_, ?_, ?_⟩
  · simp only [run, hrun]
    exact hbreaks
  · simp only [run, hresult, hrun]
    rfl
  · simp only [run, hrun]
    exact (hpath.closed hphase).2
  · simp only [run, hrun]
    exact (hpath.released hholds).2

/-- A run whose first event goes well and keeps the sink, by what comes of the rest. -/
theorem completes_or_stops_cons {now : Timestamp} {e : Event} {rest : List TimedEvent} {s : Session}
    {w y : σ} (hcalls : sink.Succeeds ((s.plan e).calls now) w y)
    (hresult : (s.handle sink now e w).result = .done)
    (hsession : (s.handle sink now e w).session = (s.plan e).session)
    (hsink : (s.handle sink now e w).sink = y) (hs : s.holdsSink = true)
    (hmid : (s.plan e).session.holdsSink = true)
    (hrest : (s.plan e).session.Completes sink rest y ((s.plan e).session.run sink rest y) ∨
      (s.plan e).session.Stops sink rest y ((s.plan e).session.run sink rest y)) :
    s.Completes sink ((now, e) :: rest) w (s.run sink ((now, e) :: rest) w) ∨
      s.Stops sink ((now, e) :: rest) w (s.run sink ((now, e) :: rest) w) := by
  have hrun : s.run sink ((now, e) :: rest) w =
      { (s.plan e).session.run sink rest y with
        results := .done :: ((s.plan e).session.run sink rest y).results } := by
    simp only [run, hresult, hsession, hsink]
  rw [hrun]
  rcases hrest with ⟨z, hsucceeds, hcourse⟩ | hstops
  · left
    refine ⟨z, ?_, ?_⟩
    · rw [intended_cons]
      exact hcalls.append sink hsucceeds
    · rw [hcourse]
      simp only [Sink.leave, hs, hmid]
      rfl
  · right
    obtain ⟨before, t, f, after, error, z, hsplit, hsucceeds, hbreaks, hresults, hend⟩ := hstops
    refine ⟨(now, e) :: before, t, f, after, error, z, by rw [hsplit]; rfl, ?_, ?_, ?_, hend⟩
    · rw [intended_cons]
      exact hcalls.append sink hsucceeds
    · rwa [(s.plan_path e).options] at hbreaks
    · simp only [hresults]
      rfl

/-- **A run against a sink that does not panic completes, or stops at the first call that fails.** -/
theorem run_completes_or_stops (events : List TimedEvent) (s : Session) {w : σ}
    (hcalm : sink.Calm w) :
    s.Completes sink events w (s.run sink events w) ∨
      s.Stops sink events w (s.run sink events w) := by
  induction events generalizing s w with
  | nil => exact .inl ⟨w, rfl, by simp [run, planAll, planNothing, Sink.leave]⟩
  | cons x rest ih =>
      obtain ⟨now, e⟩ := x
      have hpath := s.plan_path e
      cases handle_carries sink now e s w with
      | panicked hpanic => exact absurd hpanic hcalm
      | failed hbreaks hresult hphase hholds =>
          exact .inr (stops_of_failed rest hcalm hbreaks hresult hphase hholds)
      | @done y hcalls hresult hsession hsink =>
          cases hmid : (s.plan e).session.holdsSink with
          | true =>
              have hs : s.holdsSink = true := by
                cases hs : s.holdsSink with
                | true => rfl
                | false => exact absurd hmid (by simp [(hpath.released hs).2])
              have hy : (s.handle sink now e w).sink = y := by simp [hsink, Sink.leave, hmid]
              exact completes_or_stops_cons hcalls hresult hsession hy hs hmid
                (ih _ (hcalm.of_reaches (hcalls.reaches sink)))
          | false =>
              have hlast := intended_released rest hmid
              have hcalm' := hcalm.of_reaches ((hcalls.reaches sink).leave s (s.plan e).session)
              rw [← hsink] at hcalm'
              refine .inl ⟨y, ?_, ?_⟩
              · rw [intended_cons, hlast.1, List.append_nil]
                exact hcalls
              · simp only [run, hresult, hsession, run_released rest hcalm' hmid]
                simp only [hsink, Sink.leave, hmid, List.map_cons, planAll, Plan.andThen, hlast.2]
                rfl

theorem run_results_length (events : List TimedEvent) (s : Session) (w : σ) :
    (s.run sink events w).results.length = events.length := by
  induction events generalizing s w with
  | nil => rfl
  | cons x rest ih =>
      obtain ⟨now, e⟩ := x
      simp only [run, List.length_cons, ih]

/-- The results of the first events of a run do not depend on what follows them. -/
theorem run_results_prefix {xs ys : List TimedEvent} {s : Session} {w : σ} {first last : List Result}
    (h : (s.run sink (xs ++ ys) w).results = first ++ last) (hlength : first.length = xs.length) :
    (s.run sink xs w).results = first := by
  rw [run_append] at h
  exact (List.append_inj h ((run_results_length xs s w).trans hlength.symm)).1

theorem completes_of_done {events : List TimedEvent} {s : Session} {w : σ} (hcalm : sink.Calm w)
    (hdone : ∀ r ∈ (s.run sink events w).results, r = .done) :
    s.Completes sink events w (s.run sink events w) := by
  rcases run_completes_or_stops events s hcalm with hcompletes | hstops
  · exact hcompletes
  · obtain ⟨before, now, e, after, error, x, -, -, -, hresults, -⟩ := hstops
    have hfailed : Result.failed error ∈ (s.run sink events w).results := by
      rw [hresults]
      exact List.mem_append_right _ List.mem_cons_self
    cases hdone _ hfailed

/-- A session that has failed leaves its sink alone and stays closed. -/
theorem run_after_failure {xs : List TimedEvent} (ys : List TimedEvent) {s : Session} {w : σ}
    {error : CaptureError} (hcalm : sink.Calm w)
    (hfailed : .failed error ∈ (s.run sink xs w).results) :
    (s.run sink (xs ++ ys) w).sink = (s.run sink xs w).sink ∧
      (s.run sink xs w).session.phase = .closed := by
  rcases run_completes_or_stops xs s hcalm with hcompletes | hstops
  · obtain ⟨w', -, hcourse⟩ := hcompletes
    rw [hcourse] at hfailed
    cases List.eq_of_mem_replicate hfailed
  · obtain ⟨before, now, e, after, error', x, -, hsucceeds, hbreaks, -, hphase, hholds⟩ := hstops
    have hreaches := (hsucceeds.reaches sink).trans sink (hbreaks.reaches sink)
    refine ⟨?_, hphase⟩
    rw [run_append]
    simp only [run_released ys (hcalm.of_reaches hreaches) hholds]

end Session

end Wiretap
