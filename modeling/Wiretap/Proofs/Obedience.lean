import Wiretap.Proofs.Plan

/-! Every operation of a session carries out its plan, whatever the sink answers. The calls of the plan
are made in order as long as they succeed. The first one that fails ends the session: no other call
follows, except that a sink of the session's own is closed if it was not closing that failed. -/

namespace Wiretap

/-- The error of a session whose call failed. -/
def CaptureError.ofCall (c : SinkCall) (e : IoError) : CaptureError :=
  match c with
  | .close => .close e
  | _ => .write e

namespace Sink

variable {σ : Type} (sink : Sink σ)

/-- All of the calls succeed and lead from one state to the other. -/
def Succeeds : List SinkCall → σ → σ → Prop
  | [], w, w' => w' = w
  | c :: cs, w, w' => ∃ x, sink.call c w = (.ok, x) ∧ Succeeds cs x w'

/-- What a session does with its sink after a call that failed. -/
def giveUp (shared : Bool) (c : SinkCall) (w : σ) : σ :=
  if shared ∨ c = .close then sink.release w else sink.release (sink.call .close w).2

/-- One of the calls fails after all before it have succeeded; the error and the state after it. -/
def Breaks (shared : Bool) (calls : List SinkCall) (w : σ) (error : CaptureError) (w' : σ) : Prop :=
  ∃ before c after e x y, calls = before ++ c :: after ∧ sink.Succeeds before w x ∧
    sink.call c x = (.failed e, y) ∧ error = .ofCall c e ∧ w' = sink.giveUp shared c y

/-- One of the calls panics after all before it have succeeded, or the close does that follows one that
failed; the state after it. -/
def Panics (shared : Bool) (calls : List SinkCall) (w w' : σ) : Prop :=
  ∃ before c after x, calls = before ++ c :: after ∧ sink.Succeeds before w x ∧
    (sink.call c x = (.panicked, w') ∨ ∃ e y, sink.call c x = (.failed e, y) ∧ shared = false ∧
      c ≠ .close ∧ sink.call .close y = (.panicked, w'))

/-- The states that a sink can come to. -/
inductive Reaches (w : σ) : σ → Prop
  | refl : Reaches w w
  | call (c : SinkCall) {x : σ} (h : Reaches w x) : Reaches w (sink.call c x).2
  | release {x : σ} (h : Reaches w x) : Reaches w (sink.release x)

/-- Some call ends in a panic, now or later. -/
def CanPanic (w : σ) : Prop := ∃ c x, sink.Reaches w x ∧ (sink.call c x).1 = .panicked

theorem Reaches.trans {w x y : σ} (h : sink.Reaches w x) (h' : sink.Reaches x y) :
    sink.Reaches w y := by
  induction h' with
  | refl => exact h
  | call c _ ih => exact .call c ih
  | release _ ih => exact .release ih

theorem CanPanic.of_reaches {w x : σ} (h : sink.Reaches w x) (hx : sink.CanPanic x) :
    sink.CanPanic w := by
  obtain ⟨c, y, hy, hpanic⟩ := hx
  exact ⟨c, y, h.trans sink hy, hpanic⟩

theorem Succeeds.reaches {cs : List SinkCall} {w x : σ} (h : sink.Succeeds cs w x) :
    sink.Reaches w x := by
  induction cs generalizing w with
  | nil =>
      rw [Succeeds] at h
      rw [h]
      exact .refl
  | cons c cs ih =>
      obtain ⟨z, hz, h⟩ := h
      have hfirst : sink.Reaches w (sink.call c w).2 := .call c .refl
      rw [hz] at hfirst
      exact hfirst.trans sink (ih h)

theorem Breaks.reaches {shared : Bool} {cs : List SinkCall} {w w' : σ} {e : CaptureError}
    (h : sink.Breaks shared cs w e w') : sink.Reaches w w' := by
  obtain ⟨before, c, after, e, x, y, -, hbefore, hcall, -, rfl⟩ := h
  have hy := Reaches.call c (hbefore.reaches sink)
  rw [hcall] at hy
  unfold giveUp
  split
  · exact .release hy
  · exact .release (.call .close hy)

/-- A panic comes of some state that the sink can come to. -/
theorem Panics.canPanic {shared : Bool} {cs : List SinkCall} {w w' : σ}
    (h : sink.Panics shared cs w w') : sink.CanPanic w := by
  obtain ⟨before, c, after, x, -, hbefore, hcall | ⟨e, y, hfails, -, -, hclose⟩⟩ := h
  · exact ⟨c, x, hbefore.reaches sink, congrArg Prod.fst hcall⟩
  · have hy := Reaches.call c (hbefore.reaches sink)
    rw [hfails] at hy
    exact ⟨.close, y, hy, congrArg Prod.fst hclose⟩

theorem Succeeds.append {cs ds : List SinkCall} {w x y : σ} (h : sink.Succeeds cs w x)
    (h' : sink.Succeeds ds x y) : sink.Succeeds (cs ++ ds) w y := by
  induction cs generalizing w with
  | nil =>
      rw [Succeeds] at h
      rwa [h] at h'
  | cons c cs ih =>
      obtain ⟨z, hz, h⟩ := h
      exact ⟨z, hz, ih h⟩

theorem Breaks.append_right {shared : Bool} {cs : List SinkCall} {w w' : σ} {e : CaptureError}
    (h : sink.Breaks shared cs w e w') (ds : List SinkCall) :
    sink.Breaks shared (cs ++ ds) w e w' := by
  obtain ⟨before, c, after, e, x, y, rfl, hrest⟩ := h
  exact ⟨before, c, after ++ ds, e, x, y, by simp, hrest⟩

theorem Breaks.append_left {shared : Bool} {cs ds : List SinkCall} {w x w' : σ} {e : CaptureError}
    (hcs : sink.Succeeds cs w x) (h : sink.Breaks shared ds x e w') :
    sink.Breaks shared (cs ++ ds) w e w' := by
  obtain ⟨before, c, after, e, y, z, rfl, hbefore, hrest⟩ := h
  exact ⟨cs ++ before, c, after, e, y, z, by simp, hcs.append sink hbefore, hrest⟩

theorem Panics.append_right {shared : Bool} {cs : List SinkCall} {w w' : σ}
    (h : sink.Panics shared cs w w') (ds : List SinkCall) : sink.Panics shared (cs ++ ds) w w' := by
  obtain ⟨before, c, after, x, rfl, hrest⟩ := h
  exact ⟨before, c, after ++ ds, x, by simp, hrest⟩

theorem Panics.append_left {shared : Bool} {cs ds : List SinkCall} {w x w' : σ}
    (hcs : sink.Succeeds cs w x) (h : sink.Panics shared ds x w') :
    sink.Panics shared (cs ++ ds) w w' := by
  obtain ⟨before, c, after, y, rfl, hbefore, hrest⟩ := h
  exact ⟨cs ++ before, c, after, y, by simp, hcs.append sink hbefore, hrest⟩

end Sink

/-- The sink after an operation, if nothing failed: it is let go when the session ends. -/
def Sink.leave {σ : Type} (sink : Sink σ) (before after : Session) (w : σ) : σ :=
  if before.holdsSink = true ∧ after.holdsSink = false then sink.release w else w

/-- The reply carries out the calls, or as many of them as succeed. -/
inductive Obeys {σ : Type} (sink : Sink σ) (s : Session) (calls : List SinkCall) (after : Session)
    (w : σ) (r : Reply σ) : Prop
  | done {w' : σ} (hcalls : sink.Succeeds calls w w') (hresult : r.result = .done)
      (hsession : r.session = after) (hsink : r.sink = sink.leave s after w')
  | failed {e : CaptureError} (hbreaks : sink.Breaks s.options.shared calls w e r.sink)
      (hresult : r.result = .failed e) (hphase : r.session.phase = .closed)
      (hholds : r.session.holdsSink = false)
  | panicked (hpanic : sink.CanPanic w) (hresult : r.result = .panicked)
      (hpanics : ∃ y, sink.Panics s.options.shared calls w y ∧ r.sink = sink.leave s r.session y)

namespace Obeys

variable {σ : Type} {sink : Sink σ} {s mid after : Session} {calls more : List SinkCall} {w : σ}
  {r : Reply σ}

/-- Nothing asked, nothing done. -/
theorem nothing (hs : r.session.holdsSink = s.holdsSink) (hresult : r.result = .done)
    (hsink : r.sink = w) : Obeys sink s [] r.session w r :=
  .done rfl hresult rfl (by simp [Sink.leave, hs, hsink])

/-- Where nothing is asked, nothing fails. -/
theorem unasked (h : Obeys sink s [] after w r) :
    r.result = .done ∧ r.session = after ∧ r.sink = sink.leave s after w := by
  cases h with
  | done hcalls hresult hsession hsink =>
      rw [Sink.Succeeds] at hcalls
      exact ⟨hresult, hsession, hcalls ▸ hsink⟩
  | failed hbreaks =>
      obtain ⟨before, c, after, -, -, -, hcalls, -⟩ := hbreaks
      simp at hcalls
  | panicked _ _ hpanics =>
      obtain ⟨-, ⟨before, c, after, -, hcalls, -⟩, -⟩ := hpanics
      simp at hcalls

theorem of_panics {y : σ} (h : sink.Panics s.options.shared calls w y)
    (hresult : r.result = .panicked) (hsink : r.sink = sink.leave s r.session y) :
    Obeys sink s calls after w r :=
  .panicked (h.canPanic sink) hresult ⟨y, h, hsink⟩

/-- Of the session before it only matters whether it holds the sink and whose that is. -/
theorem of_session {s' : Session} (h : Obeys sink s' calls after w r)
    (hholds : s'.holdsSink = s.holdsSink) (hshared : s'.options.shared = s.options.shared) :
    Obeys sink s calls after w r := by
  cases h with
  | done hcalls hresult hsession hsink =>
      exact .done hcalls hresult hsession (by simpa [Sink.leave, hholds] using hsink)
  | failed hbreaks hresult hphase hholds' =>
      exact .failed (hshared ▸ hbreaks) hresult hphase hholds'
  | panicked hpanic hresult hpanics =>
      obtain ⟨y, hy, hsink⟩ := hpanics
      exact .of_panics (hshared ▸ hy) hresult (by simpa [Sink.leave, hholds] using hsink)

theorem andThen {next : Session → σ → Reply σ} (h : Obeys sink s calls mid w r)
    (hholds : mid.holdsSink = s.holdsSink) (hshared : mid.options.shared = s.options.shared)
    (hnext : ∀ w', Obeys sink mid more after w' (next mid w')) :
    Obeys sink s (calls ++ more) after w (r.andThen next) := by
  cases h with
  | @done w' hcalls hresult hsession hsink =>
      have hw : r.sink = w' := by simpa [Sink.leave, hholds] using hsink
      have hafter := hnext w'
      simp only [Reply.andThen, hresult, hsession, hw]
      cases hafter with
      | done hcalls' hresult' hsession' hsink' =>
          exact .done (hcalls.append sink hcalls') hresult' hsession'
            (by simpa [Sink.leave, hholds] using hsink')
      | failed hbreaks hresult' hphase hholds' =>
          exact .failed (.append_left sink hcalls (hshared ▸ hbreaks)) hresult' hphase hholds'
      | panicked hpanic hresult' hpanics =>
          obtain ⟨y, hy, hsink'⟩ := hpanics
          exact .of_panics (.append_left sink hcalls (hshared ▸ hy)) hresult'
            (by simpa [Sink.leave, hholds] using hsink')
  | failed hbreaks hresult hphase hholds' =>
      have hr : r.andThen next = r := by simp only [Reply.andThen, hresult]
      rw [hr]
      exact .failed (.append_right sink hbreaks more) hresult hphase hholds'
  | panicked hpanic hresult hpanics =>
      have hr : r.andThen next = r := by simp only [Reply.andThen, hresult]
      obtain ⟨y, hy, hsink⟩ := hpanics
      rw [hr]
      exact .of_panics (.append_right sink hy more) hresult hsink

end Obeys

namespace Sink

variable {σ : Type} (sink : Sink σ)

/-- An append writes and flushes; what it comes to is what the first failing of the two comes to. After
a failure a sink of the session's own is closed, which may panic. -/
theorem append_spec (bytes : Bytes) (w : σ) :
    match sink.append bytes w with
    | (.ok, x) => sink.Succeeds [.write bytes, .flush] w x
    | (.failed e, y) =>
      (∀ shared, sink.Breaks shared [.write bytes, .flush] w (.write e)
        (if shared then sink.release y else sink.release (sink.call .close y).2)) ∧
        ∀ z, sink.call .close y = (.panicked, z) →
          sink.Panics false [.write bytes, .flush] w z
    | (.panicked, y) => ∀ shared, sink.Panics shared [.write bytes, .flush] w y := by
  rw [append]
  rcases hwrite : sink.call (.write bytes) w with ⟨_ | e | _, x⟩
  · dsimp only
    have hbefore : sink.Succeeds [.write bytes] w x := ⟨x, hwrite, rfl⟩
    rcases hflush : sink.call .flush x with ⟨_ | e | _, y⟩
    · exact ⟨x, hwrite, y, hflush, rfl⟩
    · refine ⟨?_, ?_⟩
      · intro shared
        exact ⟨[.write bytes], .flush, [], e, x, y, rfl, hbefore, hflush, rfl, by simp [giveUp]⟩
      · intro z hclose
        exact ⟨[.write bytes], .flush, [], x, rfl, hbefore,
          .inr ⟨e, y, hflush, rfl, SinkCall.noConfusion, hclose⟩⟩
    · exact fun shared => ⟨[.write bytes], .flush, [], x, rfl, hbefore, .inl hflush⟩
  · refine ⟨?_, ?_⟩
    · intro shared
      exact ⟨[], .write bytes, [.flush], e, w, x, rfl, rfl, hwrite, rfl, by simp [giveUp]⟩
    · intro z hclose
      exact ⟨[], .write bytes, [.flush], w, rfl, rfl,
        .inr ⟨e, x, hwrite, rfl, SinkCall.noConfusion, hclose⟩⟩
  · exact fun shared => ⟨[], .write bytes, [.flush], w, rfl, rfl, .inl hwrite⟩

theorem close_spec (w : σ) :
    match sink.call .close w with
    | (.ok, x) => sink.Succeeds [.close] w x
    | (.failed e, y) => ∀ shared, sink.Breaks shared [.close] w (.close e) (sink.release y)
    | (.panicked, y) => ∀ shared, sink.Panics shared [.close] w y := by
  rcases hclose : sink.call .close w with ⟨_ | e | _, x⟩
  · exact ⟨x, hclose, rfl⟩
  · intro shared
    exact ⟨[], .close, [], e, w, x, rfl, rfl, hclose, rfl, by simp [giveUp]⟩
  · exact fun shared => ⟨[], .close, [], w, rfl, rfl, .inl hclose⟩

end Sink

namespace Session

variable {σ : Type} (sink : Sink σ) (now : Timestamp)

/-- The reply carries out the plan. -/
def Carries (s : Session) (p : Plan) (w : σ) (r : Reply σ) : Prop :=
  Obeys sink s (p.calls now) p.session w r

theorem Carries.andThen {s : Session} {p : Plan} {next : Session → Plan} {w : σ} {r : Reply σ}
    {goOn : Session → σ → Reply σ} (h : Carries sink now s p w r)
    (hholds : p.session.holdsSink = s.holdsSink)
    (hshared : p.session.options.shared = s.options.shared)
    (hnext : ∀ w', Carries sink now p.session (next p.session) w' (goOn p.session w')) :
    Carries sink now s (p.andThen next) w (r.andThen goOn) := by
  rw [Carries, Plan.calls_andThen]
  exact Obeys.andThen h hholds hshared hnext

/-- A reply that asked nothing of the sink, whatever it told the log. -/
theorem carries_nothing (s after : Session) (w : σ) (notes : List Note)
    (hholds : after.holdsSink = s.holdsSink) :
    Carries sink now s after.planNothing w (after.quiet w notes) :=
  Obeys.nothing (r := after.quiet w notes) hholds rfl rfl

/-- What is done after telling the log. -/
theorem carries_quiet_andThen {s after : Session} {p : Plan} {w : σ}
    {goOn : Session → σ → Reply σ} (notes : List Note) (hholds : after.holdsSink = s.holdsSink)
    (hshared : after.options.shared = s.options.shared)
    (h : Carries sink now after p w (goOn after w)) :
    Carries sink now s p w ((after.quiet w notes).andThen goOn) := by
  cases h with
  | done hcalls hresult hsession hsink =>
      exact .done hcalls hresult hsession (hsink.trans (by rw [Sink.leave, hholds]; rfl))
  | failed hbreaks hresult hphase hholds' =>
      exact .failed (hshared ▸ hbreaks) hresult hphase hholds'
  | panicked hpanic hresult hpanics =>
      obtain ⟨y, hy, hsink⟩ := hpanics
      exact .of_panics (hshared ▸ hy) hresult (hsink.trans (by rw [Sink.leave, hholds]; rfl))

theorem writeBatch_carries (packets : List Packet) (s : Session) (w : σ) :
    Carries sink now s (s.planBatch packets) w
      (s.writeBatch sink (packets.map (Packet.record now)) w) := by
  rw [planBatch, writeBatch]
  by_cases hholds : s.holdsSink = true
  · rw [if_pos hholds, if_pos hholds]
    have happend := sink.append_spec (Act.content now s.headerOwed packets) w
    change Obeys sink s [.write (Act.content now s.headerOwed packets), .flush] _ w _
    dsimp only [Act.content] at happend ⊢
    generalize sink.append _ w = a at happend ⊢
    rcases a with ⟨_ | e | _, x⟩
    · exact .done happend rfl rfl (by simp [Sink.leave, hholds])
    · have hbreaks := happend.1 s.options.shared
      dsimp only
      cases hshared : s.options.shared with
      | true =>
          rw [if_pos rfl]
          exact .failed (by simpa [hshared] using hbreaks) rfl rfl rfl
      | false =>
          rw [if_neg Bool.false_ne_true]
          rcases hclose : sink.call .close x with ⟨_ | e' | _, y⟩
          · exact .failed (by simpa [hshared, hclose] using hbreaks) rfl rfl rfl
          · exact .failed (by simpa [hshared, hclose] using hbreaks) rfl rfl rfl
          · exact .of_panics (hshared ▸ happend.2 y hclose) rfl (by simp [Sink.leave, hholds, ended])
    · exact .of_panics (happend _) rfl (by simp [Sink.leave, hholds])
  · rw [if_neg hholds, if_neg hholds]
    exact carries_nothing sink now s s w [] rfl

/-- A session of its own sink settles the header and closes the sink. -/
theorem finish_obeys_own (s : Session) (w : σ) (hholds : s.holdsSink = true)
    (hshared : s.options.shared = false) :
    Obeys sink s (s.lastActs.flatMap (Act.calls now)) { s.ended with headerOwed := false } w
      (s.finish sink w) := by
  rw [finish, if_pos hholds, if_neg (by simp [hshared]), settleHeader]
  dsimp only
  cases howed : s.headerOwed with
  | false =>
      have hcalls : s.lastActs.flatMap (Act.calls now) = [.close] := by
        rw [lastActs, howed]
        rfl
      have hclose := sink.close_spec w
      rw [hcalls, if_neg Bool.false_ne_true]
      dsimp only
      rcases hcall : sink.call .close w with ⟨_ | e | _, x⟩ <;> rw [hcall] at hclose
      · exact .done hclose rfl rfl (by simp [Sink.leave, hholds, ended])
      · exact .failed (hclose _) rfl rfl rfl
      · exact .of_panics (hclose _) rfl (by simp [Sink.leave, hholds, ended])
  | true =>
      have hcalls : s.lastActs.flatMap (Act.calls now) =
          [.write CaptureFile.header, .flush] ++ [.close] := by
        rw [lastActs, howed]
        simp [Act.calls, Act.content, CaptureFile.encode]
      have happend := sink.append_spec CaptureFile.header w
      rw [hcalls, if_pos rfl]
      rcases hcall : sink.append CaptureFile.header w with ⟨_ | e | _, x⟩ <;> rw [hcall] at happend
      · have hclose := sink.close_spec x
        dsimp only
        rcases hcall' : sink.call .close x with ⟨_ | e | _, y⟩ <;> rw [hcall'] at hclose
        · exact .done (happend.append sink hclose) rfl rfl (by simp [Sink.leave, hholds, ended])
        · exact .failed (.append_left sink happend (hclose _)) rfl rfl rfl
        · exact .of_panics (.append_left sink happend (hclose _)) rfl (by simp [Sink.leave, hholds, ended])
      · have hbreaks := (happend.1 false).append_right sink [.close]
        dsimp only
        rcases hcall' : sink.call .close x with ⟨_ | e' | _, y⟩
        · exact .failed (by simpa [hshared, hcall'] using hbreaks) rfl rfl rfl
        · exact .failed (by simpa [hshared, hcall'] using hbreaks) rfl rfl rfl
        · exact .of_panics (hshared ▸ (happend.2 y hcall').append_right sink [.close]) rfl
            (by simp [Sink.leave, hholds, ended])
      · exact .of_panics ((happend _).append_right sink [.close]) rfl
          (by simp [Sink.leave, hholds, ended])

theorem finish_carries (s : Session) (w : σ) :
    Carries sink now s s.planFinish w (s.finish sink w) := by
  rw [planFinish]
  by_cases hown : s.holdsSink = true ∧ s.options.shared = false
  · rw [if_pos hown]
    exact finish_obeys_own sink now s w hown.1 hown.2
  · rw [if_neg hown, finish]
    by_cases hholds : s.holdsSink = true
    · have hshared : s.options.shared = true := by simpa [hholds] using hown
      rw [if_pos hholds, if_pos hshared]
      exact .done rfl rfl rfl (by simp [Sink.leave, hholds, ended])
    · rw [if_neg hholds]
      exact .done rfl rfl rfl (by simp [Sink.leave, hholds, quiet])

theorem start_carries (addresses : List SocketAddress) (channel : Channel) (s : Session) (w : σ) :
    Carries sink now s (s.planStart channel) w (s.start sink now addresses channel w) := by
  cases channel with
  | udp near far => exact carries_nothing sink now s _ w _ rfl
  | tcp flow =>
      rw [start, planStart]
      dsimp only
      rw [bareRecords_eq]
      exact carries_quiet_andThen sink now _ rfl rfl (writeBatch_carries sink now _ _ w)

theorem activate_carries (connection : Option Connection) (s : Session) (w : σ) :
    Carries sink now s (s.planActivate connection) w (s.activate sink now connection w) := by
  unfold activate planActivate Options.channel?
  split
  · cases hforced : s.options.forced with
    | some f => exact start_carries sink now f.addresses f.channel s w
    | none =>
        cases connection with
        | some c => exact start_carries sink now c.addresses c.channel s w
        | none => exact carries_nothing sink now s s w _ rfl
  · exact carries_nothing sink now s s w _ rfl

theorem ensureActive_carries (s : Session) (w : σ) :
    Carries sink now s s.planEnsureActive w (s.ensureActive sink now w) := by
  rw [ensureActive, planEnsureActive]
  split
  · exact activate_carries sink now none s w
  · exact carries_nothing sink now s s w _ rfl

theorem recordTcp_carries (d : Direction) (data : ByteArray) (flow : Flow) (s : Session) (w : σ) :
    Carries sink now s (s.planTcp d data flow) w (s.recordTcp sink now d data flow w) := by
  rw [recordTcp, planTcp]
  dsimp only
  rw [SentPiece.records_eq]
  split
  · exact carries_quiet_andThen sink now _ rfl rfl (writeBatch_carries sink now _ _ w)
  · exact carries_nothing sink now s _ w _ rfl

theorem recordUdp_carries (d : Direction) (data : ByteArray) (near : Endpoint)
    (far : Option Endpoint) (s : Session) (w : σ) :
    Carries sink now s (s.planUdp d data near far) w (s.recordUdp sink now d data near far w) := by
  unfold recordUdp planUdp
  by_cases hwriting : s.isWriting = true
  · rw [if_pos hwriting]
    by_cases hsize : data.size ≤ maxUdpPayload
    · rw [if_pos ⟨hwriting, hsize⟩]
      cases far with
      | none => exact carries_nothing sink now s s w _ rfl
      | some far =>
          dsimp only
          rw [if_neg (Nat.not_lt.mpr hsize)]
          cases d <;>
            exact carries_quiet_andThen sink now _ rfl rfl (writeBatch_carries sink now _ _ w)
    · rw [if_neg (fun h => hsize h.2)]
      cases far with
      | none => exact carries_nothing sink now s s w _ rfl
      | some far =>
          dsimp only
          rw [if_pos (Nat.lt_of_not_le hsize)]
          exact carries_nothing sink now s s w _ rfl
  · rw [if_neg hwriting, if_neg (fun h => hwriting h.1)]
    exact carries_nothing sink now s s w _ rfl

theorem payload_carries (d : Direction) (data : ByteArray) (s : Session) (w : σ) :
    Carries sink now s (s.planPayload d data) w (s.payload sink now d data w) := by
  unfold payload planPayload planHeard
  have hkeeps := s.planEnsureActive_keeps
  refine Carries.andThen sink now (ensureActive_carries sink now s w) hkeeps.2
    (congrArg Options.shared hkeeps.1) ?_
  intro w'
  generalize s.planEnsureActive.session = s
  by_cases hidle : s.phase = .init ∨ s.phase = .closed
  · rw [if_pos hidle, if_pos (.inl hidle)]
    exact carries_nothing sink now s s w' _ rfl
  by_cases hskips : s.skips data = true
  · rw [if_neg hidle, if_pos hskips, if_pos (.inr hskips)]
    exact carries_nothing sink now s s w' _ rfl
  rw [if_neg hidle, if_neg hskips, if_neg (not_or.mpr ⟨hidle, hskips⟩)]
  rcases s.channel with _ | flow | ⟨near, far⟩
  · exact carries_nothing sink now s s w' _ rfl
  · exact recordTcp_carries sink now d data flow s w'
  · exact recordUdp_carries sink now d data near far s w'

theorem datagram_carries (d : Direction) (data : ByteArray) (peer : SocketAddress) (s : Session)
    (w : σ) :
    Carries sink now s (s.planDatagram d data peer) w (s.datagram sink now d data peer w) := by
  unfold datagram planDatagram
  by_cases hflow : s.flow?.isSome = true
  · rw [if_pos hflow, if_pos hflow]
    exact payload_carries sink now d data s w
  rw [if_neg hflow, if_neg hflow]
  have hkeeps := s.planEnsureActive_keeps
  refine Carries.andThen sink now (ensureActive_carries sink now s w) hkeeps.2
    (congrArg Options.shared hkeeps.1) ?_
  intro w'
  generalize s.planEnsureActive.session = s
  by_cases hidle : s.phase = .init ∨ s.phase = .closed
  · rw [if_pos hidle, if_pos (.inl hidle)]
    exact carries_nothing sink now s s w' _ rfl
  by_cases hskips : s.skips data = true
  · rw [if_neg hidle, if_pos hskips, if_pos (.inr hskips)]
    exact carries_nothing sink now s s w' _ rfl
  rw [if_neg hidle, if_neg hskips, if_neg (not_or.mpr ⟨hidle, hskips⟩)]
  -- the address of the peer goes to the log before anything is recorded
  refine carries_quiet_andThen sink now _ rfl rfl ?_
  rcases s.channel with _ | flow | ⟨near, far⟩
  · exact carries_nothing sink now s s w' _ rfl
  · exact carries_nothing sink now s s w' _ rfl
  · exact recordUdp_carries sink now d data near _ s w'

theorem shutdown_carries (d : Direction) (s : Session) (w : σ) :
    Carries sink now s (s.planShutdown d) w (s.shutdown d w) := by
  unfold shutdown planShutdown
  cases s.initiator with
  | some side => exact carries_nothing sink now s s w _ rfl
  | none =>
      cases s.flow? with
      | some flow => exact carries_nothing sink now s _ w _ rfl
      | none => exact carries_nothing sink now s s w _ rfl

theorem error_carries (s : Session) (w : σ) :
    Carries sink now s s.planError w (s.error sink now w) := by
  unfold error planError
  split
  · exact carries_nothing sink now s s w _ rfl
  · cases s.isWriting with
    | false => exact finish_carries sink now s w
    | true =>
        rcases hchannel : s.channel with _ | flow | ⟨near, far⟩
        · exact finish_carries sink now s w
        · dsimp only
          rw [bareRecords_eq]
          exact Carries.andThen sink now (writeBatch_carries sink now _ s w) (by simp) (by simp)
            fun w' => finish_carries sink now _ w'
        · exact finish_carries sink now s w

theorem pause_carries (s : Session) (w : σ) : Carries sink now s s.planPause w (s.pause w) := by
  unfold pause planPause
  split
  · exact carries_nothing sink now s _ w _ rfl
  · exact carries_nothing sink now s s w _ rfl

theorem resume_carries (s : Session) (w : σ) : Carries sink now s s.planResume w (s.resume w) := by
  unfold resume planResume
  split
  · exact carries_nothing sink now s _ w _ rfl
  · exact carries_nothing sink now s s w _ rfl

theorem close_carries (s : Session) (w : σ) :
    Carries sink now s s.planClose w (s.close sink now w) := by
  unfold close planClose
  split
  · exact carries_nothing sink now s s w _ rfl
  · cases s.isWriting with
    | false => exact finish_carries sink now s w
    | true =>
        rcases hchannel : s.channel with _ | flow | ⟨near, far⟩
        · exact finish_carries sink now s w
        · dsimp only
          rw [bareRecords_eq]
          refine Carries.andThen sink now ?_ (by simp) (by simp)
            fun w' => finish_carries sink now _ w'
          exact Obeys.of_session (writeBatch_carries sink now _ _ w) rfl rfl
        · exact finish_carries sink now s w

/-- **Every operation carries out its plan.** -/
theorem handle_carries (e : Event) (s : Session) (w : σ) :
    Carries sink now s (s.plan e) w (s.handle sink now e w) := by
  cases e with
  | active connection => exact activate_carries sink now connection s w
  | payload d data => exact payload_carries sink now d data s w
  | datagram d data peer => exact datagram_carries sink now d data peer s w
  | shutdown d => exact shutdown_carries sink now d s w
  | error => exact error_carries sink now s w
  | pause => exact pause_carries sink now s w
  | resume => exact resume_carries sink now s w
  | close => exact close_carries sink now s w

end Session

end Wiretap
