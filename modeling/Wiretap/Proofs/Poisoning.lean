import Wiretap.Proofs.Isolation
import Wiretap.Proofs.Upkeep

/-! A shared sink that is poisoned. A call of the device behind the lock that panics may leave a part of
its bytes in the file; after it every call on every handle fails and none gets to the device, whoever
makes it and whatever else is done with the handles and the sessions. A session that has something to
write closes with that failure and gives its handle back, and one that has not does not notice. -/

namespace Wiretap

/-! ### What a call adds to a file -/

/-- A call adds a part of its bytes, all of them if it succeeds. -/
def SinkCall.Adds (c : SinkCall) (o : Outcome) (before after : Bytes) : Prop :=
  ∃ part, part <+: c.bytes ∧ after = before ++ part ∧ (o = .ok → part = c.bytes)

theorem SinkCall.Adds.nothing {c : SinkCall} {o : Outcome} {before after : Bytes}
    (h : after = before) (hok : o = .ok → c.bytes = []) : c.Adds o before after :=
  ⟨[], List.nil_prefix, h.trans (List.append_nil before).symm, fun ho => (hok ho).symm⟩

namespace Destination

theorem writeOnce_adds (bytes : Bytes) (d : Destination) :
    (SinkCall.write bytes).Adds (d.writeOnce bytes).1 d.contents (d.writeOnce bytes).2.contents := by
  have hall : ∀ e : Destination, e.journal = .accepted bytes :: d.journal →
      (SinkCall.write bytes).Adds .ok d.contents e.contents := by
    intro e he
    refine ⟨bytes, List.prefix_refl bytes, ?_, fun _ => rfl⟩
    rw [contents_eq, he, journalBytes_cons]
    rfl
  unfold writeOnce
  split
  · exact hall _ rfl
  · refine .nothing ?_ Outcome.noConfusion
    simp [contents_eq, journalBytes_cons, Mark.bytes]
  · exact .nothing rfl Outcome.noConfusion
  · exact hall _ rfl

theorem close_contents (d : Destination) : d.close.2.contents = d.contents := by
  unfold close
  split <;> simp [contents_eq, journalBytes_cons, Mark.bytes]

end Destination

theorem DirectSink.call_adds (c : SinkCall) (w : DirectSink) :
    c.Adds (w.call c).1 w.destination.contents (w.call c).2.destination.contents := by
  cases c with
  | write bytes =>
      cases hclosed : w.isClosed with
      | true =>
          simp only [call, hclosed, if_true]
          refine .nothing ?_ Outcome.noConfusion
          simp [Destination.contents_eq, journalBytes_cons, Mark.bytes]
      | false =>
          simp only [call, hclosed, Bool.false_eq_true, if_false]
          exact w.destination.writeOnce_adds bytes
  | flush =>
      refine .nothing ?_ fun _ => rfl
      cases hflushes : w.flushes <;> simp [call, hflushes, Destination.flush_contents]
  | close =>
      refine .nothing ?_ fun _ => rfl
      have hclose := w.destination.close_contents
      simp only [call]
      split <;> rename_i hcall <;> rw [hcall] at hclose <;> exact hclose

theorem Device.call_adds (c : SinkCall) (w : Device) :
    c.Adds (w.call c).1 w.destination.contents (w.call c).2.destination.contents := by
  cases w with
  | writer w => exact w.call_contents c
  | direct w => exact w.call_adds c

namespace Shared

variable {v : Shared Device} {c : SinkCall}

/-- The bytes in the file behind the lock. -/
def file (v : Shared Device) : Bytes := v.inner.destination.contents

theorem call_of_poisoned (h : v.poisoned = true) :
    v.call Sink.device c = (.failed poisonedError, v) := by
  rw [call, if_pos h]

theorem call_adds (c : SinkCall) (v : Shared Device) :
    c.Adds (v.call Sink.device c).1 v.file (v.call Sink.device c).2.file := by
  cases h : v.poisoned with
  | true =>
      rw [call_of_poisoned h]
      exact .nothing rfl Outcome.noConfusion
  | false =>
      rw [call_of_not_poisoned h Sink.device]
      exact v.inner.call_adds c

/-- A call that panics poisons the lock. -/
theorem call_poisons (h : (v.call Sink.device c).1 = .panicked) :
    (v.call Sink.device c).2.poisoned = true := by
  cases hv : v.poisoned with
  | true =>
      rw [call_of_poisoned hv] at h
      cases h
  | false =>
      rw [call_of_not_poisoned hv Sink.device] at h ⊢
      exact beq_iff_eq.mpr h

end Shared

/-! ### The one sink of a site -/

namespace Slot

/-- A call on the one sink of a site is a call on that sink. -/
theorem call_one (c : SinkCall) (v : Shared Device) : (Sink.slot.at 0).call c [.shared v] =
    ((v.call Sink.device c).1, [.shared (v.call Sink.device c).2]) := rfl

/-- The one sink of a site is shared and has the property. -/
def Only (P : Shared Device → Prop) (slots : List Slot) : Prop :=
  ∃ v : Shared Device, slots = [.shared v] ∧ P v

end Slot

/-- Calls leave a shared sink with the property, and so do handles made and given back. -/
structure Shared.Keeps (P : Shared Device → Prop) : Prop where
  call : ∀ {v : Shared Device} (c : SinkCall), P v → P (v.call Sink.device c).2
  release : ∀ {v : Shared Device}, P v → P v.release
  share : ∀ {v : Shared Device}, P v → P v.share

namespace Slot.Only

variable {P : Shared Device → Prop} {slots : List Slot}

theorem call (h : Slot.Only P slots) (hP : Shared.Keeps P) (i : Nat) (c : SinkCall) :
    Slot.Only P ((Sink.slot.at i).call c slots).2 := by
  obtain ⟨v, rfl, hv⟩ := h
  cases i with
  | zero => exact ⟨_, rfl, hP.call c hv⟩
  | succ i => exact ⟨v, rfl, hv⟩

theorem release (h : Slot.Only P slots) (hP : Shared.Keeps P) (i : Nat) :
    Slot.Only P ((Sink.slot.at i).release slots) := by
  obtain ⟨v, rfl, hv⟩ := h
  cases i with
  | zero => exact ⟨_, rfl, hP.release hv⟩
  | succ i => exact ⟨v, List.modify_eq_self (Nat.succ_pos i), hv⟩

theorem share (h : Slot.Only P slots) (hP : Shared.Keeps P) :
    Slot.Only P (slots.modify 0 Slot.share) := by
  obtain ⟨v, rfl, hv⟩ := h
  exact ⟨_, rfl, hP.share hv⟩

theorem turn {x y : Session × List Slot} (hP : Shared.Keeps P)
    (h : SessionTurn (Sink.slot.at 0) x y) (hslots : Slot.Only P x.2) : Slot.Only P y.2 := by
  cases h with
  | pauses => exact hslots
  | resumes => exact hslots
  | changes h =>
      -- of the small changes only calls and letting go are anything to the sink
      induction h with
      | refl => exact hslots
      | tail _ hstep ih =>
          cases hstep with
          | calls c => exact ih.call hP 0 c
          | releases => exact ih.release hP 0
          | _ => exact ih

end Slot.Only

/-! ### Sites with a shared sink -/

namespace Site

/-- A site later on: handles were copied, sessions made that share the sink, and steps taken in any
order. -/
inductive Later (site : Site) : Site → Prop
  | refl : Later site site
  | copied {later : Site} (h : Later site later) :
      Later site { later with slots := later.slots.modify 0 Slot.share }
  | seated {later : Site} (h : Later site later) (o : Options) (ho : o.shared = true) :
      Later site (later.seat 0 o)
  | stepped {later : Site} (h : Later site later) (now : Timestamp) (x : SiteStep) :
      Later site (later.step now x).site

theorem Lent.later {w : Device} {n : Nat} {site : Site} (h : Lent w n site) :
    Later { slots := [.shared { inner := w }] } site := by
  induction h with
  | shared => exact .refl
  | copied _ ih => exact ih.copied
  | dropped _ now ih => exact ih.stepped now (.sink 0 .drop)
  | called _ now c ih => exact ih.stepped now (.sink 0 (.call c))
  | headed _ now ih => exact ih.stepped now (.sink 0 .header)
  | seated _ o ho ih => exact ih.seated o ho
  | told _ now i e ih => exact ih.stepped now (.session i e)
  | letGo _ now i ih => exact ih.stepped now (.letGo i)

/-- The one sink of the site is shared and has the property, and every session shares it. -/
structure Lodges (P : Shared Device → Prop) (site : Site) : Prop where
  slots : Slot.Only P site.slots
  seats : ∀ seat ∈ site.seats,
    seat.sink = 0 ∧ ∃ o : Options, o.shared = true ∧ seat.session.InStep o

namespace Lodges

variable {P : Shared Device → Prop} {site later : Site} {i : Nat} {seat after : Seat}

theorem set (h : Lodges P site) (hseat : site.seats[i]? = some seat) (hsink : after.sink = seat.sink)
    (hstep : ∀ o, seat.session.InStep o → after.session.InStep o) :
    ∀ other ∈ site.seats.set i after,
      other.sink = 0 ∧ ∃ o : Options, o.shared = true ∧ other.session.InStep o := by
  intro other hother
  rcases List.mem_or_eq_of_mem_set hother with hother | rfl
  · exact h.seats other hother
  · obtain ⟨hzero, o, ho, hinStep⟩ := h.seats seat (List.mem_of_getElem? hseat)
    exact ⟨hsink.trans hzero, o, ho, hstep o hinStep⟩

theorem step (h : Lodges P site) (hP : Shared.Keeps P) (now : Timestamp) (x : SiteStep) :
    Lodges P (site.step now x).site := by
  cases x with
  | session i e =>
      simp only [Site.step]
      split
      · exact h
      · rename_i seat hseat
        split
        · have hsink := (h.seats seat (List.mem_of_getElem? hseat)).1
          have hturn : SessionTurn (Sink.slot.at seat.sink) (seat.session, site.slots) _ :=
            Session.handle_turn now e seat.session site.slots
          refine ⟨?_, h.set hseat rfl fun o ho => (hturn.inStep ho).1⟩
          rw [hsink] at hturn ⊢
          exact h.slots.turn hP hturn
        · exact h
  | letGo i =>
      simp only [Site.step]
      split
      · exact h
      · rename_i seat hseat
        split
        · refine ⟨?_, h.set hseat rfl fun o ho => ho⟩
          unfold Session.drop
          split
          · exact h.slots.release hP seat.sink
          · exact h.slots
        · exact h
  | sink i handling =>
      cases handling with
      | call c => exact ⟨h.slots.call hP i c, h.seats⟩
      | header => exact ⟨h.slots.call hP i _, h.seats⟩
      | drop => exact ⟨h.slots.release hP i, h.seats⟩

/-- **What calls and handles keep of a shared sink lasts.** -/
theorem lasts (h : Lodges P site) (hP : Shared.Keeps P) (hlater : Later site later) :
    Lodges P later := by
  induction hlater with
  | refl => exact h
  | copied _ ih => exact ⟨ih.slots.share hP, ih.seats⟩
  | seated _ o ho ih =>
      refine ⟨ih.slots.share hP, ?_⟩
      intro seat hseat
      rcases List.mem_append.mp hseat with hseat | hseat
      · exact ih.seats seat hseat
      · rw [List.mem_singleton.mp hseat]
        exact ⟨rfl, o, ho, Session.create_inStep o⟩
  | stepped _ now x ih => exact ih.step hP now x

theorem of_lent {w : Device} {n : Nat} (h : Lent w n site) : Lodges (fun _ => True) site := by
  have hempty : Lodges (fun _ => True) { slots := [.shared { inner := w }] } :=
    ⟨⟨_, rfl, trivial⟩, fun seat hseat => absurd hseat List.not_mem_nil⟩
  exact hempty.lasts ⟨fun _ _ => trivial, fun _ => trivial, fun _ => trivial⟩ h.later

end Lodges

end Site

/-! ### The call that panics -/

/-- Calls that succeed add their bytes, and leave a shared sink. -/
theorem Slot.succeeds_adds {calls : List SinkCall} {v : Shared Device} {slots : List Slot}
    (h : (Sink.slot.at 0).Succeeds calls [.shared v] slots) :
    ∃ u, slots = [.shared u] ∧ u.file = v.file ++ written calls := by
  induction calls generalizing v with
  | nil =>
      rw [Sink.Succeeds] at h
      exact ⟨v, h, (List.append_nil _).symm⟩
  | cons c calls ih =>
      obtain ⟨x, hcall, h⟩ := h
      rw [Slot.call_one] at hcall
      injection hcall with hok hx
      rw [← hx] at h
      obtain ⟨u, hu, hfile⟩ := ih h
      obtain ⟨part, -, hadded, hall⟩ := Shared.call_adds c v
      refine ⟨u, hu, ?_⟩
      calc
        u.file = (v.call Sink.device c).2.file ++ written calls := hfile
        _ = (v.file ++ c.bytes) ++ written calls := by rw [hadded, hall hok]
        _ = v.file ++ written (c :: calls) := List.append_assoc _ _ _

/-- The sink was poisoned while so many bytes were to be added: a part of them is in the file. -/
def Shared.Torn (meant before : Bytes) (u : Shared Device) : Prop :=
  u.poisoned = true ∧ ∃ part, part <+: meant ∧ u.file = before ++ part

namespace Shared.Torn

variable {v u : Shared Device} {meant before : Bytes}

theorem of_call {c : SinkCall} (h : (v.call Sink.device c).1 = .panicked) :
    Shared.Torn c.bytes v.file (v.call Sink.device c).2 := by
  obtain ⟨part, hpart, hadded, -⟩ := Shared.call_adds c v
  exact ⟨Shared.call_poisons h, part, hpart, hadded⟩

/-- What was added before the call that panicked, and what was not added after it. -/
theorem within {whole rest : Bytes} (h : Shared.Torn meant (before ++ whole) u) :
    Shared.Torn (whole ++ (meant ++ rest)) before u := by
  obtain ⟨hpoisoned, part, ⟨missing, hpart⟩, hfile⟩ := h
  refine ⟨hpoisoned, whole ++ part, ⟨missing ++ rest, ?_⟩, ?_⟩
  · rw [← hpart]
    simp only [List.append_assoc]
  · rw [hfile, List.append_assoc]

end Shared.Torn

/-- A guest's operation panics in a call that poisons the sink. -/
theorem Obeys.tears {s after : Session} {calls : List SinkCall} {v : Shared Device}
    {r : Reply (List Slot)} (hshared : s.options.shared = true)
    (h : Obeys (Sink.slot.at 0) s calls after [.shared v] r) (hpanic : r.result = .panicked) :
    Slot.Only (Shared.Torn (written calls) v.file) r.sink := by
  cases h with
  | done _ hresult => exact absurd (hresult.symm.trans hpanic) Result.noConfusion
  | failed _ hresult => exact absurd (hresult.symm.trans hpanic) Result.noConfusion
  | panicked _ _ hpanics =>
      obtain ⟨y, ⟨before, c, rest, x, rfl, hbefore, hcall | ⟨-, -, -, hown, -⟩⟩, hsink⟩ := hpanics
      · obtain ⟨u, rfl, hfile⟩ := Slot.succeeds_adds hbefore
        rw [Slot.call_one] at hcall
        injection hcall with hcall hy
        have htorn := Shared.Torn.of_call hcall
        rw [hfile] at htorn
        rw [written_append, hsink, ← hy]
        unfold Sink.leave
        split
        · exact ⟨_, rfl, htorn.within⟩
        · exact ⟨_, rfl, htorn.within⟩
      · rw [hshared] at hown
        cases hown

namespace Site

theorem file_of_slots {site : Site} {v : Shared Device} (hslots : site.slots = [.shared v]) :
    site.file = v.file := by
  rw [file, hslots]
  rfl

/-- The bytes that a step is to add to the file. -/
def meant (now : Timestamp) (site : Site) : SiteStep → Bytes
  | .session i e =>
    match site.seats[i]? with
    | some seat => written (seat.session.handle Sink.recording now e []).sink.reverse
    | none => []
  | .sink _ (.call c) => c.bytes
  | .sink _ .header => CaptureFile.header
  | .sink _ .drop => []
  | .letGo _ => []

end Site

/-- The step ended in a panic. -/
def SiteResult.isPanic : SiteResult → Bool
  | .session .panicked => true
  | .sink .panicked => true
  | _ => false

theorem SiteResult.isPanic_session {r : Result} :
    (SiteResult.session r).isPanic = true ↔ r = .panicked := by
  cases r <;> simp [isPanic]

theorem SiteResult.isPanic_sink {o : Outcome} :
    (SiteResult.sink o).isPanic = true ↔ o = .panicked := by
  cases o <;> simp [isPanic]

namespace Site.Lodges

variable {P : Shared Device → Prop} {site : Site} {i : Nat} {seat : Seat} {now : Timestamp}

theorem tears_call (h : Lodges P site) {c : SinkCall}
    (hpanic : ((Sink.slot.at i).call c site.slots).1 = .panicked) :
    Slot.Only (Shared.Torn c.bytes site.file) ((Sink.slot.at i).call c site.slots).2 := by
  obtain ⟨v, hslots, -⟩ := h.slots
  rw [file_of_slots hslots]
  rw [hslots] at hpanic ⊢
  cases i with
  | zero => exact ⟨_, rfl, .of_call hpanic⟩
  | succ i => cases hpanic

theorem tears_told (h : Lodges P site) (hseat : site.seats[i]? = some seat)
    (hpresent : seat.present = true) {e : Event}
    (hpanic : (site.step now (.session i e)).result.isPanic = true) :
    Slot.Only (Shared.Torn (site.meant now (.session i e)) site.file)
      (site.step now (.session i e)).site.slots := by
  obtain ⟨v, hslots, -⟩ := h.slots
  obtain ⟨hsink, o, ho, hinStep⟩ := h.seats seat (List.mem_of_getElem? hseat)
  obtain ⟨-, -, hrecorded⟩ := Session.handle_recording now e seat.session []
  have hmeant : site.meant now (.session i e) = written ((seat.session.plan e).calls now) := by
    simp only [meant, hseat, hrecorded, List.append_nil, List.reverse_reverse]
  have hcarries : Session.Carries _ _ _ _ _ _ :=
    Session.handle_carries (Sink.slot.at 0) now e seat.session site.slots
  rw [step_session hseat hpresent hsink] at hpanic ⊢
  rw [hmeant, file_of_slots hslots]
  rw [hslots] at hcarries hpanic ⊢
  exact hcarries.tears (hinStep.given ▸ ho) (SiteResult.isPanic_session.mp hpanic)

/-- **A step that panics poisons the sink**, and a part of what was to be added is in the file. -/
theorem tears (h : Lodges (fun _ => True) site) {x : SiteStep}
    (hpanic : (site.step now x).result.isPanic = true) :
    Lodges (Shared.Torn (site.meant now x) site.file) (site.step now x).site := by
  have hafter := h.step ⟨fun _ _ => trivial, fun _ => trivial, fun _ => trivial⟩ now x
  refine ⟨?_, hafter.seats⟩
  cases x with
  | session i e =>
      by_cases habsent : ∀ seat, site.seats[i]? = some seat → seat.present = false
      · rw [step_absent rfl habsent now] at hpanic
        cases hpanic
      · obtain ⟨seat, hseat, hpresent⟩ :
            ∃ seat, site.seats[i]? = some seat ∧ seat.present = true := by
          simpa using habsent
        exact h.tears_told hseat hpresent hpanic
  | letGo i =>
      -- a session that is let go makes no call
      simp only [Site.step] at hpanic
      split at hpanic
      · cases hpanic
      · split at hpanic <;> cases hpanic
  | sink i handling =>
      cases handling with
      | call c => exact h.tears_call (SiteResult.isPanic_sink.mp hpanic)
      | header => exact h.tears_call (SiteResult.isPanic_sink.mp hpanic)
      | drop => cases hpanic

end Site.Lodges

/-! ### After the panic -/

/-- The lock is poisoned with the device in the given state. -/
def Shared.Dead (device : Device) (v : Shared Device) : Prop := v.inner = device ∧ v.poisoned = true

/-- **Nothing gets past a poisoned lock.** -/
theorem Shared.dead_keeps (device : Device) : Shared.Keeps (Shared.Dead device) where
  call := by
    rintro v c ⟨hinner, hpoisoned⟩
    rw [Shared.call_of_poisoned hpoisoned]
    exact ⟨hinner, hpoisoned⟩
  release h := h
  share h := h

section

variable {σ : Type} {sink : Sink σ} {w x : σ} {e : IoError}

theorem Sink.Succeeds.of_refused {calls : List SinkCall} (h : sink.Succeeds calls w x)
    (hrefuses : ∀ c, sink.call c w = (.failed e, w)) : calls = [] ∧ x = w := by
  cases calls with
  | nil =>
      rw [Succeeds] at h
      exact ⟨rfl, h⟩
  | cons c calls =>
      obtain ⟨y, hcall, -⟩ := h
      rw [hrefuses] at hcall
      cases hcall

/-- **A guest with something to ask of a sink that refuses every call fails with the refusal.** -/
theorem Obeys.refused {s after : Session} {calls : List SinkCall} {r : Reply σ}
    (h : Obeys sink s calls after w r) (hrefuses : ∀ c, sink.call c w = (.failed e, w))
    (hshared : s.options.shared = true) (hasked : calls ≠ []) (hunclosed : .close ∉ calls) :
    r.result = .failed (.write e) ∧ r.session.phase = .closed ∧ r.session.holdsSink = false ∧
      r.sink = sink.release w := by
  cases h with
  | done hcalls => exact absurd (hcalls.of_refused hrefuses).1 hasked
  | failed hbreaks hresult hphase hholds =>
      -- no call succeeds, so the one that failed is the first, and a guest does not begin with a close
      obtain ⟨before, c, rest, e', y, z, rfl, hbefore, hfails, herror, hsink⟩ := hbreaks
      obtain ⟨rfl, rfl⟩ := hbefore.of_refused hrefuses
      rw [hrefuses] at hfails
      cases hfails
      have hc : c ≠ .close := fun hc => hunclosed (hc ▸ List.mem_cons_self)
      have hwrite : CaptureError.ofCall c e = .write e := by
        cases c with
        | close => exact absurd rfl hc
        | _ => rfl
      rw [Sink.giveUp, if_pos (.inl hshared)] at hsink
      exact ⟨by rw [hresult, herror, hwrite], hphase, hholds, hsink⟩
  | panicked _ _ hpanics =>
      obtain ⟨_, ⟨before, c, rest, y, -, hbefore, hcall | ⟨-, -, -, hown, -⟩⟩, -⟩ := hpanics
      · rw [(hbefore.of_refused hrefuses).2, hrefuses] at hcall
        cases hcall
      · rw [hshared] at hown
        cases hown

namespace Session

variable {s : Session} {now : Timestamp} {event : Event}

theorem InStep.guest {o : Options} (hs : s.InStep o) (ho : o.shared = true) : s.Guest := by
  intro _
  refine ⟨hs.given ▸ ho, Bool.eq_false_iff.mpr fun howed => ?_⟩
  exact absurd (ho.symm.trans (hs.owed howed).1) (by decide)

/-- What an operation asks of its sink is what it asks of one that never fails. -/
theorem calls_eq_nil_iff : (s.plan event).calls now = [] ↔
    (s.handle Sink.recording now event []).sink = [] := by
  rw [(handle_recording now event s []).2.2, List.append_nil, List.reverse_eq_nil_iff]

/-- An operation that asks nothing of its sink is the same at any sink. -/
theorem handle_idle (sink : Sink σ) (w : σ)
    (hidle : (s.handle Sink.recording now event []).sink = []) :
    let calm := s.handle Sink.recording now event []
    let reply := s.handle sink now event w
    reply.result = .done ∧ reply.session = calm.session ∧
      reply.sink = sink.leave s calm.session w := by
  have hcarries : Carries sink now s (s.plan event) w _ := handle_carries sink now event s w
  rw [Carries, calls_eq_nil_iff.mpr hidle, ← (handle_recording now event s []).2.1] at hcarries
  exact hcarries.unasked

theorem Guest.handle_refused (hs : s.Guest) (hrefuses : ∀ c, sink.call c w = (.failed e, w))
    (hasks : (s.handle Sink.recording now event []).sink ≠ []) :
    let reply := s.handle sink now event w
    s.holdsSink = true ∧ reply.result = .failed (.write e) ∧ reply.session.phase = .closed ∧
      reply.session.holdsSink = false ∧ reply.sink = sink.release w := by
  have hasked : (s.plan event).calls now ≠ [] := mt calls_eq_nil_iff.mp hasks
  have hheld : s.holdsSink = true := by
    -- nothing is asked of a sink that was let go
    by_contra hreleased
    have hnone := ((s.plan_path event).released (Bool.eq_false_iff.mpr hreleased)).1
    rw [Plan.calls, hnone] at hasked
    exact hasked rfl
  exact ⟨hheld, (handle_carries sink now event s w).refused hrefuses (hs hheld).1 hasked
    (hs.unclosed now event)⟩

end Session

end

namespace Site

/-- The shared sink of a site fails every call and is left as it is, whoever makes the call. A session
that asks nothing of it goes on as at a sink that never fails, and gives its handle back only if it is
told of an end; one that asks something of it fails to write, is closed and gives its handle back. The
other sessions are as before. -/
structure Dead (site : Site) : Prop where
  call : ∀ c, (Sink.slot.at 0).call c site.slots = (.failed Shared.poisonedError, site.slots)
  owner : ∀ now c, site.step now (.sink 0 (.call c)) = ⟨.sink (.failed Shared.poisonedError), site, []⟩
  header : ∀ now, site.step now (.sink 0 .header) = ⟨.sink (.failed Shared.poisonedError), site, []⟩
  idle : ∀ {i seat}, site.seats[i]? = some seat → seat.present = true → ∀ now e,
    let calm := seat.session.handle Sink.recording now e []
    let reply := site.step now (.session i e)
    calm.sink = [] → reply.result = .session .done ∧
      reply.site.seats = site.seats.set i { seat with session := calm.session } ∧
      reply.site.slots = (Sink.slot.at 0).leave seat.session calm.session site.slots ∧
      (e ≠ .close → e ≠ .error → calm.session.holdsSink = seat.session.holdsSink ∧
        reply.site.slots = site.slots)
  writing : ∀ {i seat}, site.seats[i]? = some seat → seat.present = true → ∀ now e,
    let calm := seat.session.handle Sink.recording now e []
    let reply := site.step now (.session i e)
    calm.sink ≠ [] → reply.result = .session (.failed (.write Shared.poisonedError)) ∧
      seat.session.holdsSink = true ∧ ∃ closed : Session, closed.phase = .closed ∧
        closed.holdsSink = false ∧
        reply.site.seats = site.seats.set i { seat with session := closed } ∧
        reply.site.slots = (Sink.slot.at 0).release site.slots

theorem Lodges.dead {device : Device} {site : Site} (h : Lodges (Shared.Dead device) site) :
    site.Dead := by
  have hcall : ∀ c, (Sink.slot.at 0).call c site.slots =
      (.failed Shared.poisonedError, site.slots) := by
    intro c
    obtain ⟨v, hslots, -, hpoisoned⟩ := h.slots
    rw [hslots, Slot.call_one, Shared.call_of_poisoned hpoisoned]
  refine ⟨hcall, ?_, ?_, ?_, ?_⟩
  · intro now c
    simp only [Site.step, hcall]
  · intro now
    simp only [Site.step, Sink.writeHeader, hcall]
  · intro i seat hseat hpresent now e calm reply hquiet
    obtain ⟨hsink, -⟩ := h.seats seat (List.mem_of_getElem? hseat)
    obtain ⟨hdone, hafter, hslots⟩ := Session.handle_idle (Sink.slot.at 0) site.slots hquiet
    have hreply : reply = _ := step_session hseat hpresent hsink now e
    rw [hreply]
    refine ⟨congrArg SiteResult.session hdone,
      congrArg (fun s => site.seats.set i { seat with session := s }) hafter, hslots, ?_⟩
    intro hclose herror
    have hholds : calm.session.holdsSink = seat.session.holdsSink := by
      rw [← seat.session.plan_holdsSink hclose herror,
        ← (Session.handle_recording now e seat.session []).2.1]
    refine ⟨hholds, hslots.trans ?_⟩
    rw [Sink.leave, if_neg]
    rintro ⟨hheld, hreleased⟩
    exact absurd (hheld.symm.trans (hholds.symm.trans hreleased)) (by decide)
  · intro i seat hseat hpresent now e calm reply hwrites
    obtain ⟨hsink, o, ho, hinStep⟩ := h.seats seat (List.mem_of_getElem? hseat)
    obtain ⟨hheld, hfailed, hphase, hholds, hslots⟩ :=
      (hinStep.guest ho).handle_refused hcall hwrites
    have hreply : reply = _ := step_session hseat hpresent hsink now e
    rw [hreply]
    exact ⟨congrArg SiteResult.session hfailed, hheld, _, hphase, hholds, rfl, hslots⟩

/-- **A shared sink that is poisoned is dead for everybody, for good.** After a call that panicked, and
whatever is done with the site from then on, the device is as the panic left it: the file ends in a part
of what was being added, every call on every handle fails, and so does every session that has something
to write. -/
theorem poison_lasts {w : Device} {n : Nat} {site later : Site} {now : Timestamp} {x : SiteStep}
    (h : Lent w n site) (hpanic : (site.step now x).result.isPanic = true)
    (hlater : Later (site.step now x).site later) :
    (∃ part, part <+: site.meant now x ∧ later.file = site.file ++ part) ∧
      later.slots.map Slot.device = (site.step now x).site.slots.map Slot.device ∧
      later.Dead ∧ Shared.poisonedError.kind = .other := by
  have htorn := (Lodges.of_lent h).tears hpanic
  obtain ⟨u, hslots, hpoisoned, part, hpart, hfile⟩ := htorn.slots
  have hdead : Lodges (Shared.Dead u.inner) (site.step now x).site :=
    ⟨⟨u, hslots, rfl, hpoisoned⟩, htorn.seats⟩
  have hlast := hdead.lasts (Shared.dead_keeps u.inner) hlater
  obtain ⟨v, hslots', hinner, -⟩ := hlast.slots
  refine ⟨⟨part, hpart, ?_⟩, ?_, hlast.dead, rfl⟩
  · calc
      later.file = v.file := file_of_slots hslots'
      _ = u.file := congrArg (fun device => device.destination.contents) hinner
      _ = site.file ++ part := hfile
  · rw [hslots, hslots', List.map_singleton, List.map_singleton, Slot.device, Slot.device, hinner]

/-- Takes the header and a part of the next write, and panics. -/
def brittle : Device := .writer { destination := { writes := [.all, .atMost 12, .panics] } }

/-- Two sessions on a sink with a header. -/
def sharedOut : Site :=
  let site := (step .epoch { slots := [.shared { inner := brittle }] } (.sink 0 .header)).site
  (site.seat 0 Session.lodger).seat 0 Session.lodger

/-- The first session panics in its handshake; then the owner copies its handle, closes the sink and
makes one more session, and the second session is told that its connection is half closed. -/
def carriedOn : Site :=
  let site := (sharedOut.step .epoch (.session 0 (.active none))).site
  let site := { site with slots := site.slots.modify 0 Slot.share }
  let site := (site.step .epoch (.sink 0 (.call .close))).site
  let site := site.seat 0 Session.lodger
  (site.step .epoch (.session 1 (.shutdown .inbound))).site

theorem poison_lasts_brittle :
    Lent brittle 1 sharedOut ∧
      (sharedOut.step .epoch (.session 0 (.active none))).result.isPanic = true ∧
      Later (sharedOut.step .epoch (.session 0 (.active none))).site carriedOn ∧
      carriedOn.file.length = 36 ∧ (∃ part, carriedOn.file = CaptureFile.header ++ part) ∧
      (carriedOn.step .epoch (.session 2 (.active none))).result =
        .session (.failed (.write Shared.poisonedError)) ∧
      (carriedOn.step .epoch (.sink 0 .header)).result = .sink (.failed Shared.poisonedError) := by
  have hlent : Lent brittle 1 sharedOut := .seated (.seated (.headed .shared .epoch) _ rfl) _ rfl
  have hpanic : (sharedOut.step .epoch (.session 0 (.active none))).result.isPanic = true := by
    decide
  have hlater : Later (sharedOut.step .epoch (.session 0 (.active none))).site carriedOn :=
    .stepped (.seated (.stepped (.copied .refl) .epoch (.sink 0 (.call .close))) _ rfl) .epoch
      (.session 1 (.shutdown .inbound))
  obtain ⟨⟨part, -, hfile⟩, -, hdead, -⟩ := poison_lasts hlent hpanic hlater
  have hbefore : sharedOut.file = CaptureFile.header := by decide
  have hseat : carriedOn.seats[2]? = some ⟨0, Session.create Session.lodger, true⟩ := by decide
  have hwriting := hdead.writing hseat rfl .epoch (.active none) (by decide)
  refine ⟨hlent, hpanic, hlater, by decide, ⟨part, hbefore ▸ hfile⟩, hwriting.1, ?_⟩
  rw [hdead.header]

end Site

end Wiretap
