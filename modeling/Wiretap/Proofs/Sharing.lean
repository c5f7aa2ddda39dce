import Wiretap.Site
import Wiretap.Proofs.Batches
import Wiretap.Proofs.Writer

/-! A capture file that sessions share. Their handles lead to one writer sink behind a lock, and as long
as nothing panics a call on a handle is a call on that sink: what is proved of a session with a writer
sink holds of a session at a site. From there a run of a site is an account of its sessions' calls, each
with what it came to and the bytes that the destination accepted during it. -/

namespace Wiretap

/-! ### Sinks that answer as others do -/

/-- One sink answers as the other does, in all states that are related. -/
structure Sink.Mirrors {σ τ : Type} (sink : Sink σ) (image : Sink τ) (R : σ → τ → Prop) : Prop where
  call : ∀ {w v}, R w v → ∀ c, (sink.call c w).1 = (image.call c v).1 ∧
    R (sink.call c w).2 (image.call c v).2
  release : ∀ {w v}, R w v → R (sink.release w) (image.release v)

namespace Sink.Mirrors

variable {σ τ : Type} {sink : Sink σ} {image : Sink τ} {R : σ → τ → Prop} {w w' : σ} {v : τ}
  {calls : List SinkCall}

theorem call_eq (h : sink.Mirrors image R) (hw : R w v) {c : SinkCall} {o : Outcome}
    (hcall : sink.call c w = (o, w')) : ∃ v', image.call c v = (o, v') ∧ R w' v' := by
  obtain ⟨houtcome, hafter⟩ := h.call hw c
  rw [hcall] at houtcome hafter
  exact ⟨_, Prod.ext houtcome.symm rfl, hafter⟩

theorem succeeds (h : sink.Mirrors image R) (hw : R w v) (hcalls : sink.Succeeds calls w w') :
    ∃ v', image.Succeeds calls v v' ∧ R w' v' := by
  induction calls generalizing w v with
  | nil =>
      rw [Sink.Succeeds] at hcalls
      exact ⟨v, rfl, hcalls ▸ hw⟩
  | cons c calls ih =>
      obtain ⟨x, hcall, hrest⟩ := hcalls
      obtain ⟨y, hcall', hx⟩ := h.call_eq hw hcall
      obtain ⟨v', hrest', hv'⟩ := ih hx hrest
      exact ⟨v', ⟨y, hcall', hrest'⟩, hv'⟩

theorem giveUp (h : sink.Mirrors image R) (hw : R w v) (shared : Bool) (c : SinkCall) :
    R (sink.giveUp shared c w) (image.giveUp shared c v) := by
  unfold Sink.giveUp
  split
  · exact h.release hw
  · exact h.release (h.call hw .close).2

theorem breaks (h : sink.Mirrors image R) (hw : R w v) {shared : Bool} {error : CaptureError}
    (hbreaks : sink.Breaks shared calls w error w') :
    ∃ v', image.Breaks shared calls v error v' ∧ R w' v' := by
  obtain ⟨before, c, after, e, x, y, hcalls, hbefore, hfails, herror, rfl⟩ := hbreaks
  obtain ⟨x', hbefore', hx⟩ := h.succeeds hw hbefore
  obtain ⟨y', hfails', hy⟩ := h.call_eq hx hfails
  exact ⟨_, ⟨before, c, after, e, x', y', hcalls, hbefore', hfails', herror, rfl⟩,
    h.giveUp hy shared c⟩

theorem leave (h : sink.Mirrors image R) (hw : R w v) (before after : Session) :
    R (sink.leave before after w) (image.leave before after v) := by
  unfold Sink.leave
  split
  · exact h.release hw
  · exact hw

theorem reaches (h : sink.Mirrors image R) (hw : R w v) (hreaches : sink.Reaches w w') :
    ∃ v', image.Reaches v v' ∧ R w' v' := by
  induction hreaches with
  | refl => exact ⟨v, .refl, hw⟩
  | call c _ ih =>
      obtain ⟨x, hx, hR⟩ := ih
      exact ⟨_, hx.call c, (h.call hR c).2⟩
  | release _ ih =>
      obtain ⟨x, hx, hR⟩ := ih
      exact ⟨_, hx.release, h.release hR⟩

theorem canPanic (h : sink.Mirrors image R) (hw : R w v) (hpanic : sink.CanPanic w) :
    image.CanPanic v := by
  obtain ⟨c, x, hx, hpanic⟩ := hpanic
  obtain ⟨y, hy, hR⟩ := h.reaches hw hx
  exact ⟨c, y, hy, by rw [← (h.call hR c).1, hpanic]⟩

/-- **A session makes of the one sink what it makes of the other.** -/
theorem obeys (h : sink.Mirrors image R) (hw : R w v) (hcalm : image.Calm v) {s after : Session}
    {r : Reply σ} (hobeys : Obeys sink s calls after w r) :
    ∃ v', R r.sink v' ∧ Obeys image s calls after v ⟨r.result, r.session, v', r.notes⟩ := by
  cases hobeys with
  | @done x hcalls hresult hsession hsink =>
      obtain ⟨y, hcalls', hy⟩ := h.succeeds hw hcalls
      exact ⟨_, hsink ▸ h.leave hy s after, .done hcalls' hresult hsession rfl⟩
  | failed hbreaks hresult hphase hholds =>
      obtain ⟨v', hbreaks', hv'⟩ := h.breaks hw hbreaks
      exact ⟨v', hv', .failed hbreaks' hresult hphase hholds⟩
  | panicked hpanic => exact absurd (h.canPanic hw hpanic) hcalm

end Sink.Mirrors

/-! ### The writer sink of a site -/

/-- The one sink of a site is a shared writer sink in the given state, whose destination is calm. -/
def Slot.Over (slots : List Slot) (v : WriterSink) : Prop :=
  v.destination.Calm ∧ ∃ handles, slots = [.shared ⟨.writer v, false, handles⟩]

theorem slot_mirrors : (Sink.slot.at 0).Mirrors Sink.writer Slot.Over where
  call := by
    rintro slots v ⟨hcalm, handles, rfl⟩ c
    obtain ⟨hpanic, hcalm'⟩ := WriterSink.call_calm hcalm c
    have hcall : (Sink.slot.at 0).call c [.shared ⟨.writer v, false, handles⟩] =
        ((v.call c).1, [.shared ⟨.writer (v.call c).2, false, handles⟩]) := by
      rcases hv : v.call c with ⟨o, v'⟩
      rw [hv] at hpanic
      cases o with
      | panicked => exact absurd rfl hpanic
      | ok => simp [Sink.at, Sink.slot, Slot.call, Sink.shared, Shared.call, Sink.device, Device.call, hv]
      | failed e =>
          simp [Sink.at, Sink.slot, Slot.call, Sink.shared, Shared.call, Sink.device, Device.call, hv]
    rw [hcall]
    exact ⟨rfl, hcalm', handles, rfl⟩
  release := by
    rintro slots v ⟨hcalm, handles, rfl⟩
    exact ⟨hcalm, handles - 1, rfl⟩

/-! ### Guests -/

namespace Session

/-- A session that neither writes a header to its sink nor closes it. -/
def Guest (s : Session) : Prop := s.holdsSink = true → s.options.shared = true ∧ s.headerOwed = false

theorem create_guest {options : Options} (h : options.shared = true) : (create options).Guest := by
  intro _
  exact ⟨h, by simp [create, h]⟩

theorem guest_of_released {s : Session} (h : s.holdsSink = false) : s.Guest := by
  intro hheld
  exact absurd (hheld.symm.trans h) (by decide)

theorem Guest.plan {s : Session} (hs : s.Guest) (e : Event) : (s.plan e).session.Guest := by
  intro hheld
  have hpath := s.plan_path e
  have hbefore : s.holdsSink = true := by
    cases hs : s.holdsSink with
    | true => rfl
    | false => exact absurd (hheld.symm.trans (hpath.released hs).2) (by decide)
  obtain ⟨hshared, howed⟩ := hs hbefore
  have hheader := hpath.lawful.header
  rw [howed] at hheader
  exact ⟨by rw [hpath.options, hshared], hheader.settled⟩

end Session

theorem written_captureCalls (closes : Bool) (batches : List (Timestamp × List Packet)) :
    written (captureCalls false closes batches) =
      batches.flatMap fun b => CaptureFile.encode (b.2.map (Packet.record b.1)) := by
  induction batches with
  | nil => cases closes <;> rfl
  | cons batch batches ih =>
      rw [captureCalls, written_append, ih, List.flatMap_cons]
      congr 1
      simp [written, SinkCall.bytes, Act.content]

/-- The bytes of a capture are the owed header, if anything is written at all, and the records. -/
theorem written_capture (owed closes : Bool) (batches : List (Timestamp × List Packet)) :
    written (captureCalls owed closes batches) =
      (if owed && (closes || !batches.isEmpty) then CaptureFile.header else []) ++
        CaptureFile.encode (batches.flatMap fun b => b.2.map (Packet.record b.1)) := by
  have hrecords : CaptureFile.encode (batches.flatMap fun b => b.2.map (Packet.record b.1)) =
      batches.flatMap fun b => CaptureFile.encode (b.2.map (Packet.record b.1)) := by
    rw [CaptureFile.encode, List.flatMap_assoc]
    rfl
  rw [hrecords]
  cases batches with
  | nil => cases owed <;> cases closes <;> rfl
  | cons batch batches =>
      rw [captureCalls, written_append, written_captureCalls, List.flatMap_cons, ← List.append_assoc]
      simp [written, SinkCall.bytes, Act.content]

/-- The records of some batches, one after another. -/
def batchBytes (now : Timestamp) (batches : List (List Packet)) : Bytes :=
  batches.flatMap fun b => CaptureFile.encode (b.map (Packet.record now))

namespace Session

/-- What a guest means to write is its batches and nothing else. -/
theorem Guest.written {s : Session} (hs : s.Guest) (now : Timestamp) (e : Event) :
    Wiretap.written ((s.plan e).calls now) = batchBytes now (s.plan e).batches := by
  have hpath := s.plan_path e
  cases hheld : s.holdsSink with
  | true =>
      rw [(hpath.follows hheld).calls now, (hs hheld).2, written_captureCalls, Plan.timedBatches,
        List.flatMap_map]
      rfl
  | false =>
      have hnone := (hpath.released hheld).1
      rw [Plan.batches_of_acts_nil hnone, Plan.calls, hnone]
      rfl

theorem plan_batches_fit (s : Session) (e : Event) :
    ∀ b ∈ (s.plan e).batches, ∀ p ∈ b, p.Fits := by
  intro b hb p hp
  obtain ⟨hb, -⟩ := List.mem_filter.mp hb
  obtain ⟨a, ha, rfl⟩ := List.mem_map.mp hb
  have hsound := (s.plan_path e).lawful.sound a ha
  cases a with
  | append header packets => exact hsound.2 p hp
  | close => cases hp

theorem plan_batches_whole (s : Session) (now : Timestamp) (e : Event) :
    WholeRecords [] (batchBytes now (s.plan e).batches) := by
  refine ⟨(s.plan e).batches.flatMap fun b => b.map (Packet.record now), ?_, ?_⟩
  · rw [List.nil_append, CaptureFile.encode, List.flatMap_assoc]
    rfl
  · intro r hr
    obtain ⟨b, hb, hr⟩ := List.mem_flatMap.mp hr
    obtain ⟨p, hp, rfl⟩ := List.mem_map.mp hr
    exact (s.plan_batches_fit e b hb p hp).record_exact now

end Session

/-- What a guest's call with a writer sink adds to the destination: the batches of its plan, or as much
of them as was accepted before a call that failed. -/
structure Session.Posts (s : Session) (now : Timestamp) (e : Event) (v : WriterSink)
    (r : Reply WriterSink) (bytes : Bytes) : Prop where
  contents : r.sink.destination.contents = v.destination.contents ++ bytes
  part : bytes <+: batchBytes now (s.plan e).batches
  done : r.result = .done →
    bytes = batchBytes now (s.plan e).batches ∧ r.session = (s.plan e).session
  failed : r.result ≠ .done → r.session.phase = .closed ∧ r.session.holdsSink = false

theorem Session.Guest.posts {s : Session} {now : Timestamp} {e : Event} {v : WriterSink}
    {r : Reply WriterSink} (hs : s.Guest) (hcalm : v.destination.Calm)
    (h : Carries Sink.writer now s (s.plan e) v r) :
    s.Posts now e v r (r.sink.destination.contents.drop v.destination.contents.length) := by
  have hwritten := hs.written now e
  cases h with
  | @done v' hcalls hresult hsession hsink =>
      have hsink : r.sink = v' := hsink.trans (ite_self v')
      have hcontents := hcalls.writer_contents
      rw [hwritten] at hcontents
      rw [hsink, hcontents, List.drop_left]
      exact ⟨hsink ▸ hcontents, List.prefix_refl _, fun _ => ⟨rfl, hsession⟩,
        fun hfailed => absurd hresult hfailed⟩
  | failed hbreaks hresult hphase hholds =>
      obtain ⟨part, hpart, hcontents⟩ := hbreaks.writer_contents
      rw [hwritten] at hpart
      rw [hcontents, List.drop_left]
      refine ⟨hcontents, hpart, fun hdone => ?_, fun _ => ⟨hphase, hholds⟩⟩
      rw [hresult] at hdone
      cases hdone
  | panicked hpanic => exact absurd hpanic (Sink.writer_calm hcalm)

/-! ### Sites -/

/-- A step and when it was taken. -/
abbrev TimedStep := Timestamp × SiteStep

/-- What the call of a session came to, and the bytes that the destination accepted during it. -/
structure Posting where
  now : Timestamp
  result : Result
  session : Session
  bytes : Bytes

/-- The steps that sessions and their owners take. -/
def SiteStep.ofSessions : SiteStep → Bool
  | .session _ _ => true
  | .letGo _ => true
  | .sink _ _ => false

/-- The seat or the sink that a step is about. -/
def SiteStep.index : SiteStep → Nat
  | .session i _ => i
  | .letGo i => i
  | .sink i _ => i

namespace Site

/-- The bytes that the destination behind the first sink has accepted. -/
def file (site : Site) : Bytes :=
  match site.slots with
  | [] => []
  | slot :: _ => slot.device.destination.contents

def run : List TimedStep → Site → Site
  | [], site => site
  | (now, x) :: rest, site => run rest (site.step now x).site

/-- The posting of a step, with the number of its session: a step that is no call of a session has none. -/
def postings (site : Site) (now : Timestamp) (x : SiteStep) : List (Nat × Posting) :=
  let reply := site.step now x
  match x, reply.result with
  | .session i _, .session result =>
    (reply.site.seats[i]?).toList.map fun seat =>
      (i, ⟨now, result, seat.session, reply.site.file.drop site.file.length⟩)
  | _, _ => []

/-- The postings of a run in the order of its steps. -/
def ledger : List TimedStep → Site → List (Nat × Posting)
  | [], _ => []
  | (now, x) :: rest, site => site.postings now x ++ ledger rest (site.step now x).site

/-- A writer sink to be shared, with nobody on it yet. -/
def vacant (d : Destination) : Site := { slots := [.shared { inner := .writer { destination := d } }] }

/-- The maker of the sink has written the header and then handed it to a session for each of the
options. -/
def sharing (d : Destination) (options : List Options) : Site :=
  options.foldl (fun site o => site.seat 0 o) ((vacant d).step .epoch (.sink 0 .header)).site

/-- All sessions of a site are guests on its one sink, which is a writer sink in the given state. -/
structure Shares (site : Site) (v : WriterSink) : Prop where
  slots : Slot.Over site.slots v
  seats : ∀ seat ∈ site.seats, seat.sink = 0 ∧ seat.session.Guest

variable {site : Site} {v : WriterSink}

theorem Shares.file_eq (h : site.Shares v) : site.file = v.destination.contents := by
  obtain ⟨-, handles, hslots⟩ := h.slots
  rw [file, hslots]
  rfl

theorem Shares.guest {i : Nat} {seat : Seat} (h : site.Shares v)
    (hseat : site.seats[i]? = some seat) : seat.session.Guest :=
  (h.seats seat (List.mem_of_getElem? hseat)).2

/-- What a step of a session is to the sink that is shared and to the seats. -/
inductive Takes (site : Site) (v : WriterSink) (now : Timestamp) :
    SiteStep → Site → WriterSink → List (Nat × Posting) → Prop
  | told {i : Nat} {e : Event} {seat : Seat} {r : Reply WriterSink} {after : Site}
      (hseat : site.seats[i]? = some seat) (hpresent : seat.present = true)
      (hcarries : Session.Carries Sink.writer now seat.session (seat.session.plan e) v r)
      (hseats : after.seats = site.seats.set i { seat with session := r.session }) :
      Takes site v now (.session i e) after r.sink
        [(i, ⟨now, r.result, r.session,
          r.sink.destination.contents.drop v.destination.contents.length⟩)]
  | letGo {i : Nat} {seat : Seat} {after : Site} (hseat : site.seats[i]? = some seat)
      (hpresent : seat.present = true)
      (hseats : after.seats = site.seats.set i { seat with present := false }) :
      Takes site v now (.letGo i) after v []
  | absent {x : SiteStep}
      (habsent : ∀ seat, site.seats[x.index]? = some seat → seat.present = false) :
      Takes site v now x site v []

theorem seats_at {i : Nat} {seat seat' : Seat} {after : Site}
    (hseats : after.seats = site.seats.set i seat') (hseat : site.seats[i]? = some seat) :
    after.seats[i]? = some seat' := by
  rw [hseats, List.getElem?_set_self (List.getElem?_eq_some_iff.mp hseat).1]

theorem seats_apart {i j : Nat} {seat' : Seat} {after : Site}
    (hseats : after.seats = site.seats.set j seat') (hj : j ≠ i) :
    after.seats[i]? = site.seats[i]? := by
  rw [hseats, List.getElem?_set_ne hj]

theorem Shares.set_guests {i : Nat} {seat after : Seat} (h : site.Shares v)
    (hseat : site.seats[i]? = some seat) (hsink : after.sink = seat.sink)
    (hguest : after.session.Guest) :
    ∀ seat ∈ site.seats.set i after, seat.sink = 0 ∧ seat.session.Guest := by
  intro other hother
  rcases List.mem_or_eq_of_mem_set hother with hother | rfl
  · exact h.seats other hother
  · exact ⟨hsink.trans (h.seats seat (List.mem_of_getElem? hseat)).1, hguest⟩

theorem step_absent {x : SiteStep} (hx : x.ofSessions = true)
    (habsent : ∀ seat, site.seats[x.index]? = some seat → seat.present = false) (now : Timestamp) :
    site.step now x = ⟨.absent, site, []⟩ := by
  cases x with
  | sink i handling => cases hx
  | session i e =>
      cases hseat : site.seats[i]? with
      | none => simp [Site.step, hseat]
      | some seat => simp [Site.step, hseat, habsent seat hseat]
  | letGo i =>
      cases hseat : site.seats[i]? with
      | none => simp [Site.step, hseat]
      | some seat => simp [Site.step, hseat, habsent seat hseat]

theorem postings_absent {x : SiteStep} {now : Timestamp}
    (h : site.step now x = ⟨.absent, site, []⟩) : site.postings now x = [] := by
  cases x <;> simp only [postings, h]

variable {i : Nat} {seat : Seat}

/-- What a session on the one sink is told, it is told at that sink. -/
theorem step_session (hseat : site.seats[i]? = some seat) (hpresent : seat.present = true)
    (hsink : seat.sink = 0) (now : Timestamp) (e : Event) :
    site.step now (.session i e) =
      let r := seat.session.handle (Sink.slot.at 0) now e site.slots
      ⟨.session r.result, ⟨r.sink, site.seats.set i { seat with session := r.session }⟩, r.notes⟩ := by
  simp [Site.step, hseat, hpresent, hsink]

theorem Shares.told (h : site.Shares v) (now : Timestamp) (e : Event)
    (hseat : site.seats[i]? = some seat) (hpresent : seat.present = true) :
    ∃ v', (site.step now (.session i e)).site.Shares v' ∧
      site.Takes v now (.session i e) (site.step now (.session i e)).site v'
        (site.postings now (.session i e)) := by
  obtain ⟨hsink, hguest⟩ := h.seats seat (List.mem_of_getElem? hseat)
  have hcalm := Sink.writer_calm h.slots.1
  obtain ⟨v', hslots, hobeys⟩ := slot_mirrors.obeys h.slots hcalm
    (Session.handle_carries (Sink.slot.at 0) now e seat.session site.slots)
  have hstep := step_session hseat hpresent hsink now e
  generalize seat.session.handle (Sink.slot.at 0) now e site.slots = r at *
  have hafter : r.session.Guest := by
    cases hobeys with
    | done hcalls hresult hsession hsink => exact hsession ▸ hguest.plan e
    | failed hbreaks hresult hphase hholds => exact Session.guest_of_released hholds
    | panicked hpanic => exact absurd hpanic hcalm
  have hshares : (site.step now (.session i e)).site.Shares v' := by
    rw [hstep]
    exact ⟨hslots, h.set_guests hseat rfl hafter⟩
  have hpostings : site.postings now (.session i e) = [(i, ⟨now, r.result, r.session,
      v'.destination.contents.drop v.destination.contents.length⟩)] := by
    have hlength : i < site.seats.length := (List.getElem?_eq_some_iff.mp hseat).1
    have hfile := hshares.file_eq
    rw [hstep] at hfile
    simp only [postings, hstep, hfile, h.file_eq, List.getElem?_set_self hlength, Option.toList_some,
      List.map_cons, List.map_nil]
  refine ⟨v', hshares, ?_⟩
  rw [hpostings]
  exact .told hseat hpresent hobeys (by rw [hstep])

theorem Shares.letGo (h : site.Shares v) (now : Timestamp) (hseat : site.seats[i]? = some seat)
    (hpresent : seat.present = true) :
    (site.step now (.letGo i)).site.Shares v ∧
      site.Takes v now (.letGo i) (site.step now (.letGo i)).site v (site.postings now (.letGo i)) := by
  obtain ⟨hsink, hguest⟩ := h.seats seat (List.mem_of_getElem? hseat)
  have hstep : site.step now (.letGo i) =
      ⟨.session .done, ⟨seat.session.drop (Sink.slot.at 0) site.slots,
        site.seats.set i { seat with present := false }⟩, []⟩ := by
    simp [Site.step, hseat, hpresent, hsink]
  have hslots : Slot.Over (seat.session.drop (Sink.slot.at 0) site.slots) v := by
    unfold Session.drop
    split
    · exact slot_mirrors.release h.slots
    · exact h.slots
  refine ⟨?_, .letGo hseat hpresent (by rw [hstep])⟩
  rw [hstep]
  exact ⟨hslots, h.set_guests hseat rfl hguest⟩

/-- **A step of a session at a shared sink is the session's operation on the writer sink behind it.** -/
theorem Shares.step (h : site.Shares v) (now : Timestamp) {x : SiteStep} (hx : x.ofSessions = true) :
    ∃ v', (site.step now x).site.Shares v' ∧
      site.Takes v now x (site.step now x).site v' (site.postings now x) := by
  by_cases habsent : ∀ seat, site.seats[x.index]? = some seat → seat.present = false
  · have hstep := step_absent hx habsent now
    rw [postings_absent hstep, hstep]
    exact ⟨v, h, .absent habsent⟩
  · obtain ⟨seat, hseat, hpresent⟩ : ∃ seat, site.seats[x.index]? = some seat ∧ seat.present = true := by
      simpa using habsent
    cases x with
    | sink i handling => cases hx
    | session i e => exact h.told now e hseat hpresent
    | letGo i => exact ⟨v, h.letGo now hseat hpresent⟩

/-- The first step of a run, and what it leaves to be done. -/
theorem Shares.next {now : Timestamp} {x : SiteStep} {rest : List TimedStep} (h : site.Shares v)
    (hsteps : ∀ y ∈ (now, x) :: rest, y.2.ofSessions = true) :
    ∃ v', (site.step now x).site.Shares v' ∧
      site.Takes v now x (site.step now x).site v' (site.postings now x) ∧
      ∀ y ∈ rest, y.2.ofSessions = true := by
  obtain ⟨v', hshares, htakes⟩ := h.step now (hsteps (now, x) List.mem_cons_self)
  exact ⟨v', hshares, htakes, fun y hy => hsteps y (List.mem_cons_of_mem _ hy)⟩

/-- Each step adds to the destination what its postings say. -/
theorem Shares.takes_contents {now : Timestamp} {x : SiteStep} {after : Site} {v' : WriterSink}
    {postings : List (Nat × Posting)} (h : site.Shares v)
    (htakes : site.Takes v now x after v' postings) :
    v'.destination.contents =
      v.destination.contents ++ postings.flatMap fun p => p.2.bytes := by
  cases htakes with
  | told hseat hpresent hcarries hseats =>
      rw [List.flatMap_singleton]
      exact ((h.guest hseat).posts h.slots.1 hcarries).contents
  | letGo => exact (List.append_nil _).symm
  | absent => exact (List.append_nil _).symm

variable {steps : List TimedStep}

/-- **What the destination holds is what the calls added to it, in their order.** -/
theorem Shares.run (h : site.Shares v) (hsteps : ∀ x ∈ steps, x.2.ofSessions = true) :
    ∃ v', (site.run steps).Shares v' ∧ v'.destination.contents =
      v.destination.contents ++ (site.ledger steps).flatMap fun p => p.2.bytes := by
  induction steps generalizing site v with
  | nil => exact ⟨v, h, (List.append_nil _).symm⟩
  | cons x rest ih =>
      obtain ⟨now, x⟩ := x
      obtain ⟨v', hshares, htakes, hrest⟩ := h.next hsteps
      obtain ⟨v'', hshares', hcontents⟩ := ih hshares hrest
      refine ⟨v'', hshares', ?_⟩
      rw [hcontents, h.takes_contents htakes, ledger, List.flatMap_append, List.append_assoc]

/-! ### A new site -/

theorem vacant_header {d : Destination} (hcalm : d.Calm) :
    let reply := (vacant d).step .epoch (.sink 0 .header)
    reply.result = .sink (Sink.writer.writeHeader { destination := d }).1 ∧
      reply.site.Shares (Sink.writer.writeHeader { destination := d }).2 ∧ reply.site.seats = [] := by
  have hover : Slot.Over (vacant d).slots { destination := d } := ⟨hcalm, 1, rfl⟩
  obtain ⟨houtcome, hafter⟩ := slot_mirrors.call hover (.write CaptureFile.header)
  refine ⟨congrArg SiteResult.sink houtcome, ⟨hafter, ?_⟩, rfl⟩
  intro seat hseat
  cases hseat

theorem Shares.seated {o : Options} (h : site.Shares v) (ho : o.shared = true) :
    (site.seat 0 o).Shares v := by
  obtain ⟨⟨hcalm, handles, hslots⟩, hseats⟩ := h
  refine ⟨⟨hcalm, handles + 1, ?_⟩, ?_⟩
  · rw [Site.seat, hslots]
    rfl
  · intro seat hseat
    rcases List.mem_append.mp hseat with hseat | hseat
    · exact hseats seat hseat
    · rw [List.mem_singleton.mp hseat]
      exact ⟨rfl, Session.create_guest ho⟩

theorem sharing_shares {d : Destination} {options : List Options} (hcalm : d.Calm)
    (hshared : ∀ o ∈ options, o.shared = true) :
    (sharing d options).Shares (Sink.writer.writeHeader { destination := d }).2 ∧
      (sharing d options).seats = options.map fun o => ⟨0, Session.create o, true⟩ := by
  obtain ⟨-, hshares, hseats⟩ := vacant_header hcalm
  have hall : ∀ site : Site, site.Shares (Sink.writer.writeHeader { destination := d }).2 →
      (options.foldl (fun site o => site.seat 0 o) site).Shares
          (Sink.writer.writeHeader { destination := d }).2 ∧
        (options.foldl (fun site o => site.seat 0 o) site).seats =
          site.seats ++ options.map fun o => ⟨0, Session.create o, true⟩ := by
    induction options with
    | nil => exact fun site hsite => ⟨hsite, (List.append_nil _).symm⟩
    | cons o options ih =>
        intro site hsite
        obtain ⟨hshares', hseats'⟩ := ih (fun o ho => hshared o (List.mem_cons_of_mem _ ho))
          (site.seat 0 o) (hsite.seated (hshared o List.mem_cons_self))
        refine ⟨hshares', hseats'.trans ?_⟩
        rw [List.map_cons, Site.seat, List.append_assoc]
        rfl
  obtain ⟨hshares', hseats'⟩ := hall _ hshares
  exact ⟨hshares', by rw [sharing, hseats', hseats, List.nil_append]⟩

theorem header_contents {d : Destination} (hcalm : d.Calm) (hempty : d.journal = [])
    (hheader : ((vacant d).step .epoch (.sink 0 .header)).result = .sink .ok) :
    (Sink.writer.writeHeader { destination := d }).2.destination.contents = CaptureFile.header := by
  have hok : Sink.writer.writeHeader { destination := d } =
      (.ok, (Sink.writer.writeHeader { destination := d }).2) :=
    Prod.ext (SiteResult.sink.inj ((vacant_header hcalm).1.symm.trans hheader)) rfl
  have hcalls : Sink.writer.Succeeds [.write CaptureFile.header] { destination := d }
      (Sink.writer.writeHeader { destination := d }).2 := ⟨_, hok, rfl⟩
  rw [hcalls.writer_contents, Destination.contents_eq, hempty]
  rfl

/-- Two resolvers of names that record to one file. -/
def guests : List Options :=
  [{ id := "first", shared := true, forced := some (.udp (.v4 ⟨10, 0, 0, 1⟩ 53) (.v4 ⟨10, 0, 0, 2⟩ 4000)) },
    { id := "second", shared := true,
      forced := some (.udp (.v4 ⟨10, 0, 0, 1⟩ 53) (.v4 ⟨10, 0, 0, 3⟩ 4000)) }]

/-- A byte for each of them. -/
def twoAnswers : List TimedStep :=
  [(.epoch, .session 0 (.payload .outbound ⟨#[97]⟩)), (.epoch, .session 1 (.payload .outbound ⟨#[98]⟩))]

end Site

end Wiretap
