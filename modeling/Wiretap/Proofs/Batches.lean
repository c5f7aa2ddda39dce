import Wiretap.Proofs.Lifecycle

/-! The batches of a session. A batch is what goes into the capture with one write: a few packets, never
none. What a session asks of its sink follows from its batches alone: they are appended one after
another, the owed header goes before the first of them, and a sink of the session's own is closed at the
end, after the header if it is still owed. -/

namespace Wiretap

/-- The calls that append some batches, one after another, to a sink that is closed after them or not.
The owed header is part of the first write. -/
def captureCalls (owed closes : Bool) : List (Timestamp × List Packet) → List SinkCall
  | [] =>
    if closes then (if owed then [.write CaptureFile.header, .flush] else []) ++ [.close] else []
  | (now, packets) :: rest =>
    [.write (Act.content now owed packets), .flush] ++ captureCalls false closes rest

theorem captureCalls_append (owed closes : Bool) (first last : List (Timestamp × List Packet)) :
    captureCalls owed false first ++ captureCalls (owed && first.isEmpty) closes last =
      captureCalls owed closes (first ++ last) := by
  induction first generalizing owed with
  | nil => simp [captureCalls]
  | cons batch first ih =>
      have hrest := ih false
      rw [Bool.false_and] at hrest
      rw [List.isEmpty_cons, Bool.and_false, captureCalls, List.append_assoc, hrest]
      rfl

/-- However many batches there are, the sink is closed once or not at all. -/
theorem captureCalls_closes (owed closes : Bool) (batches : List (Timestamp × List Packet)) :
    (captureCalls owed closes batches).count .close = if closes then 1 else 0 := by
  induction batches generalizing owed with
  | nil => cases owed <;> cases closes <;> rfl
  | cons batch batches ih =>
      rw [captureCalls, List.count_append, ih]
      exact Nat.zero_add _

namespace Plan

/-- The packets of each append that has any. -/
def batches (p : Plan) : List (List Packet) := (p.acts.map Act.packets).filter fun b => !b.isEmpty

def timedBatches (now : Timestamp) (p : Plan) : List (Timestamp × List Packet) :=
  p.batches.map fun b => (now, b)

theorem timedBatches_isEmpty (now : Timestamp) (p : Plan) :
    (p.timedBatches now).isEmpty = p.batches.isEmpty := by
  unfold timedBatches
  cases p.batches <;> rfl

/-- The sink of a session's own is closed when the session lets it go. -/
def closes (p : Plan) : Bool := !p.session.holdsSink && !p.session.options.shared

theorem batches_append (acts acts' : List Act) (s s' : Session) :
    batches ⟨acts ++ acts', s⟩ = batches ⟨acts, s'⟩ ++ batches ⟨acts', s⟩ := by
  simp [batches]

@[simp] theorem batches_andThen (p : Plan) (next : Session → Plan) :
    (p.andThen next).batches = p.batches ++ (next p.session).batches :=
  batches_append p.acts _ _ _

theorem batches_of_acts_nil {p : Plan} (h : p.acts = []) : p.batches = [] := by
  rw [batches, h]
  rfl

/-- The calls of the plan are those of its batches. -/
structure Follows (s : Session) (p : Plan) : Prop where
  calls : ∀ now, p.calls now = captureCalls s.headerOwed p.closes (p.timedBatches now)
  owed : p.session.holdsSink = true →
    p.session.headerOwed = (s.headerOwed && p.batches.isEmpty)

namespace Follows

theorem nothing {s after : Session} (howed : after.headerOwed = s.headerOwed)
    (hholds : after.holdsSink = true) : Follows s after.planNothing where
  calls now := by
    have hcloses : after.planNothing.closes = false := by simp [closes, Session.planNothing, hholds]
    rw [hcloses]
    rfl
  owed _ := by
    rw [← Bool.and_true s.headerOwed] at howed
    exact howed

theorem batch {s before : Session} {packets : List Packet}
    (howed : s.headerOwed = before.headerOwed) (hholds : s.holdsSink = true)
    (hnonempty : packets ≠ []) : Follows before (s.planBatch packets) := by
  have hplan : s.planBatch packets =
      ⟨[.append before.headerOwed packets], { s with headerOwed := false }⟩ := by
    rw [Session.planBatch, if_pos hholds, howed]
  have hcloses : (s.planBatch packets).closes = false := by simp [closes, hholds]
  have hbatches : (s.planBatch packets).batches = [packets] := by
    simp [hplan, batches, Act.packets, hnonempty]
  refine ⟨?_, ?_⟩
  · intro now
    rw [hcloses, timedBatches, hbatches, hplan]
    rfl
  · intro _
    rw [hbatches, Session.planBatch_headerOwed, hholds]
    simp

/-- Of a plan and one that goes on from it. -/
theorem append {s : Session} {p q : Plan} (hp : Follows s p)
    (hq : p.session.holdsSink = true → Follows p.session q)
    (hreleased : p.session.holdsSink = false → q.acts = [] ∧ q.session.holdsSink = false)
    (hoptions : q.session.options = p.session.options) :
    Follows s ⟨p.acts ++ q.acts, q.session⟩ := by
  have hbatches : batches ⟨p.acts ++ q.acts, q.session⟩ = p.batches ++ q.batches :=
    batches_append p.acts q.acts q.session p.session
  cases hmid : p.session.holdsSink with
  | true =>
      have hcloses : p.closes = false := by simp [closes, hmid]
      refine ⟨?_, ?_⟩
      · intro now
        calc
          _ = p.calls now ++ q.calls now := List.flatMap_append
          _ = captureCalls s.headerOwed false (p.timedBatches now) ++
              captureCalls (s.headerOwed && (p.timedBatches now).isEmpty) q.closes
                (q.timedBatches now) := by
            rw [hp.calls, (hq hmid).calls, hp.owed hmid, hcloses, timedBatches_isEmpty]
          _ = _ := by
            rw [captureCalls_append, timedBatches, timedBatches, timedBatches, hbatches,
              List.map_append]
            rfl
      · intro hheld
        rw [hbatches, (hq hmid).owed hheld, hp.owed hmid, Bool.and_assoc]
        congr 1
        cases p.batches <;> simp
  | false =>
      obtain ⟨hacts, hheld⟩ := hreleased hmid
      have hcloses : closes ⟨p.acts ++ q.acts, q.session⟩ = p.closes := by
        simp [closes, hmid, hheld, hoptions]
      refine ⟨?_, fun h => absurd (h.symm.trans hheld) (by decide)⟩
      intro now
      rw [hcloses, timedBatches, hbatches, batches_of_acts_nil hacts, List.append_nil, hacts,
        List.append_nil]
      exact hp.calls now

end Follows

end Plan

open Session

theorem planTcp_follows (d : Direction) (data : ByteArray) (flow : Flow) {s : Session}
    (hs : s.holdsSink = true) : (s.planTcp d data flow).Follows s := by
  unfold planTcp
  dsimp only
  split
  · exact .batch rfl hs (sendAll_packets_ne_nil d (pieces_ne_nil data) flow)
  · exact .nothing rfl hs

theorem planUdp_follows (d : Direction) (data : ByteArray) (near : Endpoint) (far : Option Endpoint)
    {s : Session} (hs : s.holdsSink = true) : (s.planUdp d data near far).Follows s := by
  unfold planUdp
  split
  · cases far with
    | none => exact .nothing rfl hs
    | some far => exact .batch rfl hs (List.cons_ne_nil _ _)
  · exact .nothing rfl hs

theorem planFinish_follows {s : Session} (hs : s.holdsSink = true) : s.planFinish.Follows s := by
  unfold planFinish
  cases hshared : s.options.shared with
  | true =>
      rw [if_neg (by simp)]
      refine ⟨?_, fun h => Bool.noConfusion h⟩
      intro now
      have hcloses : Plan.closes ⟨[], s.ended⟩ = false := by simp [Plan.closes, ended, hshared]
      rw [hcloses]
      rfl
  | false =>
      rw [if_pos ⟨hs, rfl⟩]
      refine ⟨?_, fun h => Bool.noConfusion h⟩
      intro now
      have hcloses : Plan.closes ⟨s.lastActs, { s.ended with headerOwed := false }⟩ = true := by
        simp [Plan.closes, ended, hshared]
      rw [hcloses]
      cases howed : s.headerOwed <;>
        simp [lastActs, howed, Plan.calls, Act.calls, Act.content, CaptureFile.encode,
          Plan.timedBatches, Plan.batches, Act.packets, captureCalls]

theorem SessionStep.follows {s : Session} {p : Plan} (h : SessionStep s p)
    (hs : s.holdsSink = true) : p.Follows s := by
  cases h with
  | starts connection channel =>
      cases channel with
      | udp near far => exact .nothing rfl hs
      | tcp flow => exact .batch rfl hs (List.cons_ne_nil _ _)
  | sends d data flow => exact planTcp_follows d data flow hs
  | reports d data near known far => exact planUdp_follows d data near far hs
  | marks => exact .nothing rfl hs
  | pauses => exact .nothing rfl hs
  | resumes => exact .nothing rfl hs
  | resets => exact .batch rfl hs (List.cons_ne_nil _ _)
  | closes => exact .batch rfl hs (List.cons_ne_nil _ _)
  | finishes => exact planFinish_follows hs

theorem SessionPath.follows {s : Session} {p : Plan} (h : SessionPath s p)
    (hs : s.holdsSink = true) : p.Follows s := by
  induction h with
  | nil s => exact .nothing rfl hs
  | cons hstep hpath ih => exact (hstep.follows hs).append ih hpath.released hpath.options

/-! ### Runs -/

namespace Session

/-- The batches of a run, each with the time of its event. -/
def timedBatches : List TimedEvent → Session → List (Timestamp × List Packet)
  | [], _ => []
  | (now, e) :: rest, s => (s.plan e).timedBatches now ++ timedBatches rest (s.plan e).session

theorem timedBatches_released (events : List TimedEvent) {s : Session} (hs : s.holdsSink = false) :
    s.timedBatches events = [] := by
  induction events generalizing s with
  | nil => rfl
  | cons x rest ih =>
      obtain ⟨now, e⟩ := x
      obtain ⟨hacts, hheld⟩ := (s.plan_path e).released hs
      rw [timedBatches, Plan.timedBatches, Plan.batches_of_acts_nil hacts, ih hheld]
      rfl

theorem intended_eq (events : List TimedEvent) {s : Session} (hs : s.holdsSink = true) :
    s.intended events =
      captureCalls s.headerOwed (s.planAll (events.map Prod.snd)).closes (s.timedBatches events) := by
  induction events generalizing s with
  | nil =>
      have hcloses : (s.planAll ([] : List Event)).closes = false := by
        simp [planAll, planNothing, Plan.closes, hs]
      simp [timedBatches, hcloses, captureCalls]
  | cons x rest ih =>
      obtain ⟨now, e⟩ := x
      have hfirst := (s.plan_path e).follows hs
      rw [intended_cons, hfirst.calls now]
      cases hmid : (s.plan e).session.holdsSink with
      | true =>
          have hcloses : (s.plan e).closes = false := by simp [Plan.closes, hmid]
          rw [ih hmid, hfirst.owed hmid, hcloses, ← Plan.timedBatches_isEmpty now,
            captureCalls_append]
          rfl
      | false =>
          obtain ⟨hnone, hheld⟩ := intended_released rest hmid
          have hcloses : (s.plan e).closes = (s.planAll ((e :: rest.map Prod.snd))).closes := by
            have hoptions := (planAll_path (rest.map Prod.snd) (s.plan e).session).options
            simp [Plan.closes, planAll, Plan.andThen, hmid, hheld, hoptions]
          rw [hnone, List.append_nil, timedBatches, timedBatches_released rest hmid,
            List.append_nil, hcloses]
          rfl

/-- **What a run makes of a sink that never fails follows from its batches.** -/
theorem run_calls (options : Options) (events : List TimedEvent) :
    let course := (create options).run Sink.recording events []
    course.sink.reverse =
      captureCalls (!options.shared && options.fileHeader)
        (course.session.phase == .closed && !options.shared)
        ((create options).timedBatches events) := by
  have hpath := planAll_path (events.map Prod.snd) (create options)
  have hcloses : ((create options).planAll (events.map Prod.snd)).closes =
      (((create options).planAll (events.map Prod.snd)).session.phase == .closed &&
        !options.shared) := by
    have hholds := hpath.holds (create_holds options)
    rw [Holds] at hholds
    rw [Plan.closes, hpath.options, create_options]
    congr 1
    rw [Bool.eq_iff_iff, beq_iff_eq, Bool.not_eq_true', ← Bool.not_eq_true, hholds, Classical.not_not]
  dsimp only
  rw [run_recording_calls, run_recording, intended_eq events rfl, hcloses]
  rfl

end Session

end Wiretap
