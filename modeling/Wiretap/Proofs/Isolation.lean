import Wiretap.Proofs.Sharing
import Mathlib.Data.List.Forall2

/-! Sessions on a shared sink do not disturb each other. If no call of the destination fails, a session
finds at the shared sink what it would find at a sink that is its alone and never fails: each of its
calls comes to the same, leaves the same session and adds the same batches, at times of its own. What
the others do, or that they close or are let go, makes no difference, and the destination stays open. -/

namespace Wiretap

/-! ### Calls that leave no failure behind -/

/-- The destination was asked for something that it did not do. -/
def Mark.failing : Mark → Bool
  | accepted [] => true
  | writeFailed => true
  | flushFailed => true
  | closeFailed => true
  | _ => false

/-- The journal goes on from what it was, and a call that fails leaves a failure in it. -/
structure Candid (o : Outcome) (before after : List Mark) : Prop where
  grows : before <:+ after
  tells : ∀ e, o = .failed e → ∃ m ∈ after, m.failing = true

theorem Candid.of_ok {before after : List Mark} {o : Outcome} (h : before <:+ after)
    (ho : ∀ e, o ≠ .failed e) : Candid o before after :=
  ⟨h, fun e he => absurd he (ho e)⟩

theorem Candid.of_mark {before : List Mark} {o : Outcome} {m : Mark} (hm : m.failing = true) :
    Candid o before (m :: before) :=
  ⟨List.suffix_cons m before, fun _ _ => ⟨m, List.mem_cons_self, hm⟩⟩

theorem Candid.skip {before after : List Mark} {o : Outcome} {m : Mark}
    (h : Candid o (m :: before) after) : Candid o before after :=
  ⟨(List.suffix_cons m before).trans h.grows, h.tells⟩

namespace Destination

theorem writeLoop_candid (script : List Acceptance) (bytes : Bytes) (marks : List Mark) :
    Candid (writeLoop script bytes marks).1 marks (writeLoop script bytes marks).2.2 := by
  induction script generalizing bytes marks with
  | nil =>
      cases bytes with
      | nil => exact .of_ok (List.suffix_refl marks) fun _ => Outcome.noConfusion
      | cons b bytes => exact .of_ok (List.suffix_cons _ marks) fun _ => Outcome.noConfusion
  | cons a script ih =>
      cases bytes with
      | nil => exact .of_ok (List.suffix_refl marks) fun _ => Outcome.noConfusion
      | cons b bytes =>
          cases a with
          | all => exact .of_ok (List.suffix_cons _ marks) fun _ => Outcome.noConfusion
          | atMost n =>
              simp only [writeLoop]
              split
              · exact .of_mark rfl
              · exact (ih _ _).skip
          | fails e =>
              simp only [writeLoop]
              split
              · exact (ih _ _).skip
              · exact .of_mark rfl
          | panics => exact .of_ok (List.suffix_refl marks) fun _ => Outcome.noConfusion

theorem flush_candid (d : Destination) : Candid d.flush.1 d.journal d.flush.2.journal := by
  unfold flush
  split
  · exact .of_ok (List.suffix_cons _ _) fun _ => Outcome.noConfusion
  · exact .of_ok (List.suffix_cons _ _) fun _ => Outcome.noConfusion
  · exact .of_mark rfl
  · exact .of_ok (List.suffix_refl _) fun _ => Outcome.noConfusion

end Destination

namespace WriterSink

theorem call_candid {w : WriterSink} (hopen : w.isOpen = true) (c : SinkCall) :
    Candid (w.call c).1 w.destination.journal (w.call c).2.destination.journal := by
  cases c with
  | write bytes =>
      have hwrite := Destination.writeLoop_candid w.destination.writes bytes w.destination.journal
      simpa only [call, hopen, if_true, Destination.writeAll] using hwrite
  | flush => simpa only [call, hopen, if_true] using w.destination.flush_candid
  | close => simpa only [call, hopen, if_true] using w.destination.flush_candid

theorem call_isOpen {w : WriterSink} (hopen : w.isOpen = true) {c : SinkCall} (hc : c ≠ .close) :
    (w.call c).2.isOpen = true := by
  cases c with
  | write bytes => simp [call, hopen]
  | flush => simp [call, hopen]
  | close => exact absurd rfl hc

end WriterSink

namespace Sink

/-- Calls that go well leave a sink open that none of them closes. -/
theorem Succeeds.writer_isOpen {calls : List SinkCall} {w x : WriterSink}
    (h : Sink.writer.Succeeds calls w x) (hopen : w.isOpen = true) (hcalls : .close ∉ calls) :
    x.isOpen = true ∧ w.destination.journal <:+ x.destination.journal := by
  induction calls generalizing w with
  | nil =>
      rw [Succeeds] at h
      rw [h]
      exact ⟨hopen, List.suffix_refl _⟩
  | cons c calls ih =>
      obtain ⟨y, hy, h⟩ := h
      have hc : c ≠ .close := fun hc => hcalls (hc ▸ List.mem_cons_self)
      have hyopen := WriterSink.call_isOpen hopen hc
      have hgrows := (WriterSink.call_candid hopen c).grows
      have hcall : w.call c = (.ok, y) := hy
      rw [hcall] at hyopen hgrows
      obtain ⟨hxopen, hgrows'⟩ := ih h hyopen fun hclose => hcalls (List.mem_cons_of_mem c hclose)
      exact ⟨hxopen, hgrows.trans hgrows'⟩

/-- A call of a guest that fails leaves a failure in the journal. -/
theorem Breaks.writer_candid {calls : List SinkCall} {w x : WriterSink} {error : CaptureError}
    (h : Sink.writer.Breaks true calls w error x) (hopen : w.isOpen = true)
    (hcalls : .close ∉ calls) :
    x.isOpen = true ∧ w.destination.journal <:+ x.destination.journal ∧
      ∃ m ∈ x.destination.journal, m.failing = true := by
  obtain ⟨before, c, after, e, y, z, rfl, hbefore, hfails, -, rfl⟩ := h
  obtain ⟨hyopen, hgrows⟩ := hbefore.writer_isOpen hopen
    fun hclose => hcalls (List.mem_append_left _ hclose)
  have hcandid := WriterSink.call_candid hyopen c
  have hxopen := WriterSink.call_isOpen hyopen
    fun hc => hcalls (List.mem_append_right _ (hc ▸ List.mem_cons_self))
  have hcall : y.call c = (.failed e, x) := hfails
  rw [hcall] at hcandid hxopen
  exact ⟨hxopen, hgrows.trans hcandid.grows, hcandid.tells e rfl⟩

end Sink

namespace Session

theorem Guest.unclosed {s : Session} (hs : s.Guest) (now : Timestamp) (e : Event) :
    .close ∉ (s.plan e).calls now := by
  have hpath := s.plan_path e
  cases hheld : s.holdsSink with
  | true =>
      have hcloses : (s.plan e).closes = false := by
        simp [Plan.closes, hpath.options, (hs hheld).1]
      rw [(hpath.follows hheld).calls now, hcloses, ← List.count_eq_zero, captureCalls_closes]
      rfl
  | false =>
      rw [Plan.calls, (hpath.released hheld).1]
      exact List.not_mem_nil

/-- A guest's call leaves the sink open, and goes well if there is no failure in the journal after it. -/
theorem Guest.candid {s : Session} {now : Timestamp} {e : Event} {v : WriterSink}
    {r : Reply WriterSink} (hs : s.Guest) (hcalm : v.destination.Calm) (hopen : v.isOpen = true)
    (h : Carries Sink.writer now s (s.plan e) v r) :
    r.sink.isOpen = true ∧ v.destination.journal <:+ r.sink.destination.journal ∧
      ((∀ m ∈ r.sink.destination.journal, m.failing = false) → r.result = .done) := by
  have hunclosed := hs.unclosed now e
  cases h with
  | @done v' hcalls hresult hsession hsink =>
      obtain ⟨hopen', hgrows⟩ := hcalls.writer_isOpen hopen hunclosed
      have hsink : r.sink = v' := hsink.trans (ite_self v')
      rw [hsink]
      exact ⟨hopen', hgrows, fun _ => hresult⟩
  | failed hbreaks =>
      cases hheld : s.holdsSink with
      | true =>
          rw [(hs hheld).1] at hbreaks
          obtain ⟨hopen', hgrows, m, hm, hfailing⟩ := hbreaks.writer_candid hopen hunclosed
          refine ⟨hopen', hgrows, fun hclean => ?_⟩
          exact absurd (hfailing.symm.trans (hclean m hm)) (by decide)
      | false =>
          -- nothing is asked of a sink that was let go, so nothing can fail
          obtain ⟨before, c, after, -, -, -, hcalls, -⟩ := hbreaks
          rw [Plan.calls, ((s.plan_path e).released hheld).1] at hcalls
          simp at hcalls
  | panicked hpanic => exact absurd hpanic (Sink.writer_calm hcalm)

end Session

/-! ### Ledgers -/

/-- The ledger of a session with a sink of its own that never fails. -/
def Session.ledger : List TimedEvent → Session → List Posting
  | [], _ => []
  | (now, e) :: rest, s =>
    let r := s.handle Sink.recording now e []
    ⟨now, r.result, r.session, written r.sink.reverse⟩ :: ledger rest r.session

/-- The calls came to the same and added the same batches, at two times. -/
structure Posting.Alike (p q : Posting) : Prop where
  result : p.result = q.result
  session : p.session = q.session
  batches : ∃ batches, p.bytes = batchBytes p.now batches ∧ q.bytes = batchBytes q.now batches

/-- What a session is told until it is let go. -/
def toldTo (i : Nat) : List TimedStep → List TimedEvent
  | [] => []
  | (now, .session j e) :: rest => if j = i then (now, e) :: toldTo i rest else toldTo i rest
  | (_, .letGo j) :: rest => if j = i then [] else toldTo i rest
  | (_, .sink _ _) :: rest => toldTo i rest

/-- The postings of one session. -/
def postingsOf (i : Nat) (ledger : List (Nat × Posting)) : List Posting :=
  (ledger.filter fun p => p.1 == i).map Prod.snd

theorem postingsOf_append (i : Nat) (first last : List (Nat × Posting)) :
    postingsOf i (first ++ last) = postingsOf i first ++ postingsOf i last := by
  simp [postingsOf]

/-- What a session in a seat is still told, if it was not let go. -/
def upcoming (i : Nat) (seat : Seat) (steps : List TimedStep) : List TimedEvent :=
  if seat.present then toldTo i steps else []

theorem toldTo_of_ne {i : Nat} {x : SiteStep} (hx : x.index ≠ i) (now : Timestamp)
    (rest : List TimedStep) : toldTo i ((now, x) :: rest) = toldTo i rest := by
  cases x with
  | session j e => exact if_neg hx
  | letGo j => exact if_neg hx
  | sink j handling => rfl

theorem Session.Guest.ledger_cons {s : Session} (hs : s.Guest) (now : Timestamp) (e : Event)
    (rest : List TimedEvent) :
    s.ledger ((now, e) :: rest) =
      ⟨now, .done, (s.plan e).session, batchBytes now (s.plan e).batches⟩ ::
        (s.plan e).session.ledger rest := by
  obtain ⟨hresult, hsession, hsink⟩ := Session.handle_recording now e s []
  rw [Session.ledger, hresult, hsession, hsink, List.append_nil, List.reverse_reverse, hs.written]

namespace Site

/-- What the destination behind the first sink saw, the newest mark first. -/
def journal (site : Site) : List Mark :=
  match site.slots with
  | [] => []
  | slot :: _ => slot.device.destination.journal

/-- The destination behind the first sink was not closed. -/
def isOpen (site : Site) : Bool :=
  match site.slots with
  | [] => false
  | slot :: _ =>
    match slot.device with
    | .writer w => w.isOpen
    | .direct w => !w.isClosed

variable {site : Site} {v : WriterSink} {steps : List TimedStep}

theorem Shares.journal_eq (h : site.Shares v) : site.journal = v.destination.journal := by
  obtain ⟨-, handles, hslots⟩ := h.slots
  rw [journal, hslots]
  rfl

theorem Shares.isOpen_eq (h : site.Shares v) : site.isOpen = v.isOpen := by
  obtain ⟨-, handles, hslots⟩ := h.slots
  rw [isOpen, hslots]
  rfl

/-- A step leaves the sink open, and goes well if there is no failure in the journal after it. -/
theorem Shares.takes_candid {now : Timestamp} {x : SiteStep} {after : Site} {v' : WriterSink}
    {postings : List (Nat × Posting)} (h : site.Shares v) (hopen : v.isOpen = true)
    (htakes : site.Takes v now x after v' postings) :
    v'.isOpen = true ∧ v.destination.journal <:+ v'.destination.journal ∧
      ((∀ m ∈ v'.destination.journal, m.failing = false) →
        ∀ p ∈ postings, p.2.result = .done) := by
  cases htakes with
  | told hseat hpresent hcarries hseats =>
      obtain ⟨hopen', hgrows, hclean⟩ := (h.guest hseat).candid h.slots.1 hopen hcarries
      refine ⟨hopen', hgrows, ?_⟩
      intro hmarks p hp
      rw [List.mem_singleton.mp hp]
      exact hclean hmarks
  | letGo => exact ⟨hopen, List.suffix_refl _, fun _ p hp => absurd hp List.not_mem_nil⟩
  | absent => exact ⟨hopen, List.suffix_refl _, fun _ p hp => absurd hp List.not_mem_nil⟩

theorem Shares.run_grows (h : site.Shares v) (hopen : v.isOpen = true)
    (hsteps : ∀ x ∈ steps, x.2.ofSessions = true) :
    (site.run steps).isOpen = true ∧ site.journal <:+ (site.run steps).journal := by
  induction steps generalizing site v with
  | nil => exact ⟨h.isOpen_eq.trans hopen, List.suffix_refl _⟩
  | cons x rest ih =>
      obtain ⟨now, x⟩ := x
      obtain ⟨v', hshares, htakes, hrest⟩ := h.next hsteps
      obtain ⟨hopen', hgrows, -⟩ := h.takes_candid hopen htakes
      obtain ⟨hend, hgrows'⟩ := ih hshares hopen' hrest
      rw [hshares.journal_eq] at hgrows'
      rw [h.journal_eq]
      exact ⟨hend, hgrows.trans hgrows'⟩

/-- The first step of a run that leaves no failure behind. -/
theorem Shares.next_clean {now : Timestamp} {x : SiteStep} {rest : List TimedStep}
    (h : site.Shares v) (hopen : v.isOpen = true)
    (hsteps : ∀ y ∈ (now, x) :: rest, y.2.ofSessions = true)
    (hclean : ∀ m ∈ (site.run ((now, x) :: rest)).journal, m.failing = false) :
    ∃ v', (site.step now x).site.Shares v' ∧
      site.Takes v now x (site.step now x).site v' (site.postings now x) ∧ v'.isOpen = true ∧
      (∀ p ∈ site.postings now x, p.2.result = .done) ∧ ∀ y ∈ rest, y.2.ofSessions = true := by
  obtain ⟨v', hshares, htakes, hrest⟩ := h.next hsteps
  obtain ⟨hopen', -, hwell⟩ := h.takes_candid hopen htakes
  -- what is in the journal after the step is still there at the end
  have hgrows := (hshares.run_grows hopen' hrest).2
  rw [hshares.journal_eq] at hgrows
  exact ⟨v', hshares, htakes, hopen', hwell fun m hm => hclean m (hgrows.mem hm), hrest⟩

/-- A step without a failure is nothing to the session in a seat, or an event that it is told. -/
theorem Shares.takes_seat {i : Nat} {seat : Seat} {now : Timestamp} {x : SiteStep} {after : Site}
    {v' : WriterSink} {postings : List (Nat × Posting)} (h : site.Shares v)
    (htakes : site.Takes v now x after v' postings) (hdone : ∀ p ∈ postings, p.2.result = .done)
    (hseat : site.seats[i]? = some seat) (rest : List TimedStep) :
    ∃ seat', after.seats[i]? = some seat' ∧
      ((postingsOf i postings = [] ∧ seat'.session = seat.session ∧
          upcoming i seat ((now, x) :: rest) = upcoming i seat' rest) ∨
        ∃ e, postingsOf i postings = [⟨now, .done, (seat.session.plan e).session,
            batchBytes now (seat.session.plan e).batches⟩] ∧
          seat'.session = (seat.session.plan e).session ∧
          upcoming i seat ((now, x) :: rest) = (now, e) :: upcoming i seat' rest) := by
  have hothers : ∀ {x : SiteStep}, x.index ≠ i →
      upcoming i seat ((now, x) :: rest) = upcoming i seat rest := by
    intro x hx
    rw [upcoming, toldTo_of_ne hx]
    rfl
  cases htakes with
  | @told j e other r _ hother hpresent hcarries hseats =>
      by_cases hj : j = i
      · subst hj
        obtain rfl := Option.some.inj (hother.symm.trans hseat)
        have hresult : r.result = .done := hdone _ List.mem_cons_self
        obtain ⟨hbytes, hsession⟩ := ((h.guest hseat).posts h.slots.1 hcarries).done hresult
        refine ⟨_, seats_at hseats hother, .inr ⟨e, ?_, hsession, ?_⟩⟩
        · simp [postingsOf, hresult, hsession, hbytes]
        · simp [upcoming, hpresent, toldTo]
      · refine ⟨seat, (seats_apart hseats hj).trans hseat, .inl ⟨?_, rfl, hothers hj⟩⟩
        simp [postingsOf, hj]
  | @letGo j other _ hother hpresent hseats =>
      by_cases hj : j = i
      · subst hj
        obtain rfl := Option.some.inj (hother.symm.trans hseat)
        refine ⟨_, seats_at hseats hother, .inl ⟨rfl, rfl, ?_⟩⟩
        simp [upcoming, hpresent, toldTo]
      · exact ⟨seat, (seats_apart hseats hj).trans hseat, .inl ⟨rfl, rfl, hothers hj⟩⟩
  | absent habsent =>
      refine ⟨seat, hseat, .inl ⟨rfl, rfl, ?_⟩⟩
      by_cases hj : x.index = i
      · subst hj
        simp [upcoming, habsent seat hseat]
      · exact hothers hj

/-- **The postings of a session are those of a ledger of its own.** -/
theorem Shares.isolated {i : Nat} {seat : Seat} {alone : List TimedEvent} (h : site.Shares v)
    (hopen : v.isOpen = true) (hsteps : ∀ x ∈ steps, x.2.ofSessions = true)
    (hclean : ∀ m ∈ (site.run steps).journal, m.failing = false)
    (hseat : site.seats[i]? = some seat)
    (halone : alone.map Prod.snd = (upcoming i seat steps).map Prod.snd) :
    List.Forall₂ Posting.Alike (postingsOf i (site.ledger steps)) (seat.session.ledger alone) := by
  induction steps generalizing site v seat alone with
  | nil =>
      have hnone : alone = [] := by
        apply List.map_eq_nil_iff.mp
        rw [halone, upcoming]
        split <;> rfl
      rw [hnone]
      exact .nil
  | cons x rest ih =>
      obtain ⟨now, x⟩ := x
      obtain ⟨v', hshares, htakes, hopen', hdone, hrest⟩ := h.next_clean hopen hsteps hclean
      obtain ⟨seat', hseat', hstep⟩ := h.takes_seat htakes hdone hseat rest
      rw [ledger, postingsOf_append]
      rcases hstep with ⟨hnone, hsame, hupcoming⟩ | ⟨e, hposted, hnext, hupcoming⟩
      · rw [hupcoming] at halone
        rw [hnone, List.nil_append, ← hsame]
        exact ih hshares hopen' hrest hclean hseat' halone
      · rw [hupcoming, List.map_cons] at halone
        obtain ⟨⟨now', e'⟩, later, rfl, rfl, hlater⟩ := List.map_eq_cons_iff.mp halone
        rw [hposted, List.singleton_append, (h.guest hseat).ledger_cons, ← hnext]
        exact .cons ⟨rfl, rfl, _, rfl, rfl⟩ (ih hshares hopen' hrest hclean hseat' hlater)

theorem Shares.takes_done {now : Timestamp} {x : SiteStep} {after : Site} {v' : WriterSink}
    {postings : List (Nat × Posting)} (h : site.Shares v)
    (htakes : site.Takes v now x after v' postings) :
    ∀ p ∈ postings, p.2.result = .done → ∃ batches, p.2.bytes = batchBytes p.2.now batches := by
  intro p hp hdone
  cases htakes with
  | told hseat hpresent hcarries hseats =>
      rw [List.mem_singleton.mp hp] at hdone ⊢
      exact ⟨_, (((h.guest hseat).posts h.slots.1 hcarries).done hdone).1⟩
  | letGo => cases hp
  | absent => cases hp

/-- Without a failure every call goes well and adds whole batches. -/
theorem Shares.ledger_clean (h : site.Shares v) (hopen : v.isOpen = true)
    (hsteps : ∀ x ∈ steps, x.2.ofSessions = true)
    (hclean : ∀ m ∈ (site.run steps).journal, m.failing = false) :
    ∀ p ∈ site.ledger steps,
      p.2.result = .done ∧ ∃ batches, p.2.bytes = batchBytes p.2.now batches := by
  induction steps generalizing site v with
  | nil =>
      intro p hp
      cases hp
  | cons x rest ih =>
      obtain ⟨now, x⟩ := x
      obtain ⟨v', hshares, htakes, hopen', hdone, hrest⟩ := h.next_clean hopen hsteps hclean
      intro p hp
      rcases List.mem_append.mp hp with hp | hp
      · exact ⟨hdone p hp, h.takes_done htakes p hp (hdone p hp)⟩
      · exact ih hshares hopen' hrest hclean p hp

/-- A header that left no failure behind was written. -/
theorem header_accepted {d : Destination} (hcalm : d.Calm)
    (hclean : ∀ m ∈ (Sink.writer.writeHeader { destination := d }).2.destination.journal,
      m.failing = false) :
    ((vacant d).step .epoch (.sink 0 .header)).result = .sink .ok := by
  have hpanic := (WriterSink.call_calm (w := { destination := d }) hcalm (.write CaptureFile.header)).1
  have hcandid := WriterSink.call_candid (w := { destination := d }) rfl (.write CaptureFile.header)
  rw [(vacant_header hcalm).1, Sink.writeHeader]
  change SiteResult.sink (WriterSink.call (.write CaptureFile.header) { destination := d }).1 = _
  rcases hcall : WriterSink.call (.write CaptureFile.header) { destination := d } with ⟨_ | e | _, v⟩
  · rfl
  · rw [hcall] at hcandid
    obtain ⟨m, hm, hfailing⟩ := hcandid.tells e rfl
    have hv : (Sink.writer.writeHeader { destination := d }).2 = v := congrArg Prod.snd hcall
    exact absurd (hfailing.symm.trans (hclean m (hv ▸ hm))) (by decide)
  · rw [hcall] at hpanic
    exact absurd rfl hpanic

/-- **Sessions on a shared sink are as if each were alone.** If no call of the destination fails, the file is
the header and the batches of all calls in their order, and every session's calls come to what they come
to at a sink of its own that never fails, with a clock of its own. The destination is not closed. -/
theorem guests_isolated {d : Destination} {options : List Options} {steps : List TimedStep}
    (hcalm : d.Calm) (hempty : d.journal = []) (hshared : ∀ o ∈ options, o.shared = true)
    (hsteps : ∀ x ∈ steps, x.2.ofSessions = true)
    (hclean : ∀ m ∈ ((sharing d options).run steps).journal, m.failing = false) :
    let site := (sharing d options).run steps
    let ledger := (sharing d options).ledger steps
    site.file = CaptureFile.header ++ ledger.flatMap (fun p => p.2.bytes) ∧
      (∀ p ∈ ledger, p.2.result = .done ∧ ∃ batches, p.2.bytes = batchBytes p.2.now batches) ∧
      (∀ i o alone, options[i]? = some o → alone.map Prod.snd = (toldTo i steps).map Prod.snd →
        List.Forall₂ Posting.Alike (postingsOf i ledger) ((Session.create o).ledger alone)) ∧
      site.isOpen = true := by
  obtain ⟨hshares, hseats⟩ := sharing_shares hcalm hshared
  have hopen : (Sink.writer.writeHeader { destination := d }).2.isOpen = true :=
    WriterSink.call_isOpen (w := { destination := d }) (c := .write CaptureFile.header) rfl nofun
  obtain ⟨hend, hgrows⟩ := hshares.run_grows hopen hsteps
  have hheader := header_accepted hcalm fun m hm => hclean m (hgrows.mem (hshares.journal_eq ▸ hm))
  obtain ⟨v, hafter, hcontents⟩ := hshares.run hsteps
  rw [header_contents hcalm hempty hheader, ← hafter.file_eq] at hcontents
  refine ⟨hcontents, hshares.ledger_clean hopen hsteps hclean, ?_, hend⟩
  intro i o alone ho halone
  have hseat : (sharing d options).seats[i]? = some ⟨0, Session.create o, true⟩ := by
    rw [hseats, List.getElem?_map, ho]
    rfl
  exact hshares.isolated hopen hsteps hclean hseat halone

/-- Takes what it is given bit by bit, and is interrupted between. -/
def slowDisk : Destination :=
  { writes := [.atMost 10, .fails (.bare .interrupted), .atMost 20, .atMost 5] }

/-- The first of them closes and is let go before the second answers. -/
def parting : List TimedStep :=
  [(.epoch, .session 0 (.payload .outbound ⟨#[97]⟩)), (.epoch, .session 0 .close), (.epoch, .letGo 0),
    (.epoch, .session 1 (.payload .outbound ⟨#[98]⟩))]

theorem guests_isolated_slow :
    slowDisk.Calm ∧ slowDisk.journal = [] ∧ (∀ o ∈ guests, o.shared = true) ∧
      (∀ x ∈ parting, x.2.ofSessions = true) ∧
      (∀ m ∈ ((sharing slowDisk guests).run parting).journal, m.failing = false) ∧
      List.Forall₂ Posting.Alike (postingsOf 1 ((sharing slowDisk guests).ledger parting))
        ((Session.create guests[1]).ledger
          [(⟨1, 0, by decide, by decide⟩, .payload .outbound ⟨#[98]⟩)]) ∧
      ((sharing slowDisk guests).run parting).isOpen = true := by
  have hcalm : slowDisk.Calm := by simp [Destination.Calm, slowDisk]
  have hshared : ∀ o ∈ guests, o.shared = true := by simp [guests]
  have hsteps : ∀ x ∈ parting, x.2.ofSessions = true := by simp [parting, SiteStep.ofSessions]
  have hclean : ∀ m ∈ ((sharing slowDisk guests).run parting).journal, m.failing = false := by
    decide
  obtain ⟨-, -, hisolated, hopen⟩ := guests_isolated hcalm rfl hshared hsteps hclean
  exact ⟨hcalm, rfl, hshared, hsteps, hclean, hisolated 1 guests[1] _ rfl rfl, hopen⟩

end Site

end Wiretap
