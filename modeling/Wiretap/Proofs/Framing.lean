import Wiretap.Proofs.Sharing

/-! The framing of a shared capture file. Whatever the destination answers, the file is the header and
what the calls of the sessions added to it: whole records for a call that went well, a beginning of whole
records for one that failed, and nothing from its session after that. Other sessions go on, so the file
is whole records with at most one cut short, the last, as long as nothing is accepted after a record
that was cut short; a batch that comes after one lands in the midst of it. -/

namespace Wiretap

/-- A file header and whole records, of which the last may be cut short. -/
def Framed (bytes : Bytes) : Prop :=
  ∃ capture, WholeRecords CaptureFile.header capture ∧ bytes <+: capture

theorem Framed.of_prefix {bytes more : Bytes} (h : Framed more) (hbytes : bytes <+: more) :
    Framed bytes := by
  obtain ⟨capture, hcapture, hmore⟩ := h
  exact ⟨capture, hcapture, hbytes.trans hmore⟩

/-- The two lengths of the first record are one number, as far as it is there. -/
theorem Framed.lengths_eq {rest : Bytes} (h : Framed (CaptureFile.header ++ rest))
    (hlength : 16 ≤ rest.length) : field32 rest 8 = field32 rest 12 := by
  obtain ⟨capture, ⟨rs, rfl, -⟩, hbegins⟩ := h
  obtain ⟨more, hmore⟩ := (List.prefix_append_right_inj CaptureFile.header).mp hbegins
  cases rs with
  | nil =>
      rw [(List.append_eq_nil_iff.mp hmore).1] at hlength
      exact absurd hlength (by decide)
  | cons r rs =>
      have hbyte : ∀ k, k < 16 → rest.getD k 0 = r.bytes.getD k 0 := by
        intro k hk
        have hshort : k < r.bytes.length := by rw [Record.bytes_length]; omega
        have hsame : rest[k]? = r.bytes[k]? :=
          calc
            _ = (rest ++ more)[k]? := (List.getElem?_append_left (by omega)).symm
            _ = (r.bytes ++ CaptureFile.encode rs)[k]? := by rw [hmore]; rfl
            _ = r.bytes[k]? := List.getElem?_append_left hshort
        rw [List.getD_eq_getElem?_getD, hsame, List.getD_eq_getElem?_getD]
      have hfield : ∀ k, k + 3 < 16 → field32 rest k = field32 r.bytes k := by
        intro k hk
        rw [field32, field32, hbyte k (by omega), hbyte (k + 1) (by omega), hbyte (k + 2) (by omega),
          hbyte (k + 3) (by omega)]
      rw [hfield 8 (by decide), hfield 12 (by decide), Record.captured_field, Record.original_field]

theorem wholeRecords_nil : WholeRecords [] [] := ⟨[], rfl, fun r hr => by cases hr⟩

theorem WholeRecords.append {front bytes more : Bytes} (h : WholeRecords front bytes)
    (h' : WholeRecords [] more) : WholeRecords front (bytes ++ more) := by
  obtain ⟨rs, rfl, hrs⟩ := h
  obtain ⟨ss, rfl, hss⟩ := h'
  refine ⟨rs ++ ss, by rw [CaptureFile.encode_append, List.nil_append, List.append_assoc], ?_⟩
  intro r hr
  exact (List.mem_append.mp hr).elim (hrs r) (hss r)

/-- What a call adds to a capture file: a beginning of whole records, all of them if it goes well. -/
structure Posting.Sound (p : Posting) : Prop where
  part : ∃ whole, WholeRecords [] whole ∧ p.bytes <+: whole
  done : p.result = .done → WholeRecords [] p.bytes
  closed : p.result ≠ .done → p.session.phase = .closed ∧ p.session.holdsSink = false

/-- Nothing is added after records of which the last is cut short. -/
def TornLast (postings : List Posting) : Prop :=
  ∀ before p after, postings = before ++ p :: after → ¬WholeRecords [] p.bytes →
    ∀ q ∈ after, q.bytes = []

/-- Postings that keep the last record the only one that is cut short are a beginning of whole records. -/
theorem framed_of_tornLast {postings : List Posting} (hsound : ∀ p ∈ postings, p.Sound)
    (htorn : TornLast postings) :
    ∃ whole, WholeRecords [] whole ∧ (postings.flatMap Posting.bytes) <+: whole := by
  induction postings with
  | nil => exact ⟨[], wholeRecords_nil, List.prefix_refl []⟩
  | cons p rest ih =>
      rw [List.flatMap_cons]
      by_cases hp : WholeRecords [] p.bytes
      · have hrest : TornLast rest := by
          intro before q after hsplit
          exact htorn (p :: before) q after (by rw [hsplit]; rfl)
        obtain ⟨whole, hwhole, hpart⟩ := ih (fun q hq => hsound q (List.mem_cons_of_mem p hq)) hrest
        exact ⟨p.bytes ++ whole, hp.append hwhole, (List.prefix_append_right_inj p.bytes).mpr hpart⟩
      · have hnothing : rest.flatMap Posting.bytes = [] :=
          List.flatMap_eq_nil_iff.mpr (htorn [] p rest rfl hp)
        rw [hnothing, List.append_nil]
        exact (hsound p List.mem_cons_self).part

namespace Site

variable {site : Site} {v : WriterSink} {steps : List TimedStep}

theorem Shares.takes_sound {now : Timestamp} {x : SiteStep} {after : Site} {v' : WriterSink}
    {postings : List (Nat × Posting)} (h : site.Shares v)
    (htakes : site.Takes v now x after v' postings) : ∀ p ∈ postings, p.2.Sound := by
  intro p hp
  cases htakes with
  | @told i e seat r after hseat hpresent hcarries hseats =>
      have hposts := (h.guest hseat).posts h.slots.1 hcarries
      have hwhole := seat.session.plan_batches_whole now e
      rw [List.mem_singleton.mp hp]
      exact ⟨⟨_, hwhole, hposts.part⟩, fun hdone => (hposts.done hdone).1 ▸ hwhole, hposts.failed⟩
  | letGo => cases hp
  | absent => cases hp

theorem Shares.ledger_sound (h : site.Shares v) (hsteps : ∀ x ∈ steps, x.2.ofSessions = true) :
    ∀ p ∈ site.ledger steps, p.2.Sound := by
  induction steps generalizing site v with
  | nil =>
      intro p hp
      cases hp
  | cons x rest ih =>
      obtain ⟨now, x⟩ := x
      obtain ⟨v', hshares, htakes, hrest⟩ := h.next hsteps
      intro p hp
      rcases List.mem_append.mp hp with hp | hp
      · exact h.takes_sound htakes p hp
      · exact ih hshares hrest p hp

/-- The call of a session that has let its sink go adds nothing to the file, and it holds no sink after. -/
theorem Shares.takes_released {i : Nat} {seat : Seat} {now : Timestamp} {x : SiteStep} {after : Site}
    {v' : WriterSink} {postings : List (Nat × Posting)} (h : site.Shares v)
    (htakes : site.Takes v now x after v' postings) (hseat : site.seats[i]? = some seat)
    (hreleased : seat.session.holdsSink = false) :
    (∀ p ∈ postings, p.1 = i → p.2.bytes = []) ∧
      ∃ seat', after.seats[i]? = some seat' ∧ seat'.session.holdsSink = false := by
  cases htakes with
  | @told j e other r after hother hpresent hcarries hseats =>
      by_cases hj : j = i
      · subst hj
        obtain rfl := Option.some.inj (hother.symm.trans hseat)
        have hposts := (h.guest hseat).posts h.slots.1 hcarries
        have hplan := (other.session.plan_path e).released hreleased
        have hnone : (other.session.plan e).batches = [] := Plan.batches_of_acts_nil hplan.1
        refine ⟨?_, _, seats_at hseats hother, ?_⟩
        · intro p hp _
          have hpart := hposts.part
          rw [hnone] at hpart
          rw [List.mem_singleton.mp hp]
          exact List.prefix_nil.mp hpart
        · by_cases hdone : r.result = .done
          · rw [(hposts.done hdone).2]
            exact hplan.2
          · exact (hposts.failed hdone).2
      · refine ⟨?_, seat, (seats_apart hseats hj).trans hseat, hreleased⟩
        intro p hp hi
        rw [List.mem_singleton.mp hp] at hi
        exact absurd hi hj
  | @letGo j other after hother hpresent hseats =>
      refine ⟨fun p hp => absurd hp List.not_mem_nil, ?_⟩
      by_cases hj : j = i
      · subst hj
        obtain rfl := Option.some.inj (hother.symm.trans hseat)
        exact ⟨{ other with present := false }, seats_at hseats hother, hreleased⟩
      · exact ⟨seat, (seats_apart hseats hj).trans hseat, hreleased⟩
  | absent => exact ⟨fun p hp => absurd hp List.not_mem_nil, seat, hseat, hreleased⟩

/-- A session that has let its sink go adds nothing more to the file. -/
theorem Shares.ledger_released {i : Nat} {seat : Seat} (h : site.Shares v)
    (hsteps : ∀ x ∈ steps, x.2.ofSessions = true) (hseat : site.seats[i]? = some seat)
    (hreleased : seat.session.holdsSink = false) :
    ∀ p ∈ site.ledger steps, p.1 = i → p.2.bytes = [] := by
  induction steps generalizing site v seat with
  | nil =>
      intro p hp
      cases hp
  | cons x rest ih =>
      obtain ⟨now, x⟩ := x
      obtain ⟨v', hshares, htakes, hrest⟩ := h.next hsteps
      obtain ⟨hnothing, seat', hseat', hreleased'⟩ := h.takes_released htakes hseat hreleased
      intro p hp
      rcases List.mem_append.mp hp with hp | hp
      · exact hnothing p hp
      · exact ih hshares hrest hseat' hreleased' p hp

/-- A session of which a call failed is closed, and adds nothing more to the file. -/
theorem Shares.ledger_failed (h : site.Shares v) (hsteps : ∀ x ∈ steps, x.2.ofSessions = true)
    {before after : List (Nat × Posting)} {p : Nat × Posting}
    (hledger : site.ledger steps = before ++ p :: after) (hfailed : p.2.result ≠ .done) :
    ∀ q ∈ after, q.1 = p.1 → q.2.bytes = [] := by
  induction steps generalizing site v before with
  | nil => simp [ledger] at hledger
  | cons x rest ih =>
      obtain ⟨now, x⟩ := x
      obtain ⟨v', hshares, htakes, hrest⟩ := h.next hsteps
      rw [ledger] at hledger
      generalize (site.step now x).site = next at *
      generalize site.postings now x = postings at *
      cases htakes with
      | letGo => exact ih hshares hrest hledger
      | absent => exact ih hshares hrest hledger
      | @told i e seat r _ hseat hpresent hcarries hseats =>
          cases before with
          | cons b before =>
              injection hledger with _ hledger
              exact ih hshares hrest hledger
          | nil =>
              injection hledger with hfirst hledger
              subst hfirst hledger
              have hposts := (h.guest hseat).posts h.slots.1 hcarries
              exact hshares.ledger_released hrest (seats_at hseats hseat) (hposts.failed hfailed).2

/-- **A shared capture file is framed as long as nothing follows a record that is cut short.** The file is
the header and what the calls added to it. The bytes that the destination has accepted at any moment are
a beginning of those at the end. -/
theorem shared_file_framed {d : Destination} {options : List Options} {steps : List TimedStep}
    (hcalm : d.Calm) (hempty : d.journal = [])
    (hheader : ((vacant d).step .epoch (.sink 0 .header)).result = .sink .ok)
    (hshared : ∀ o ∈ options, o.shared = true) (hsteps : ∀ x ∈ steps, x.2.ofSessions = true) :
    let file := ((sharing d options).run steps).file
    let ledger := (sharing d options).ledger steps
    file = CaptureFile.header ++ ledger.flatMap (fun p => p.2.bytes) ∧
      (∀ p ∈ ledger, p.2.Sound) ∧
      (∀ before p after, ledger = before ++ p :: after → p.2.result ≠ .done →
        ∀ q ∈ after, q.1 = p.1 → q.2.bytes = []) ∧
      (TornLast (ledger.map Prod.snd) → ∀ moment, moment <+: file → Framed moment) := by
  obtain ⟨hshares, -⟩ := sharing_shares hcalm hshared
  obtain ⟨v, hafter, hcontents⟩ := hshares.run hsteps
  have hsound := hshares.ledger_sound hsteps
  rw [header_contents hcalm hempty hheader, ← hafter.file_eq] at hcontents
  refine ⟨hcontents, hsound, fun before p after => hshares.ledger_failed hsteps, ?_⟩
  intro htorn moment hmoment
  have hpostings : ∀ p ∈ ((sharing d options).ledger steps).map Prod.snd, p.Sound := by
    intro p hp
    obtain ⟨q, hq, rfl⟩ := List.mem_map.mp hp
    exact hsound q hq
  obtain ⟨whole, ⟨rs, rfl, hrs⟩, hpart⟩ := framed_of_tornLast hpostings htorn
  refine Framed.of_prefix ⟨CaptureFile.header ++ CaptureFile.encode rs, ⟨rs, rfl, hrs⟩, ?_⟩ hmoment
  rw [hcontents, List.prefix_append_right_inj]
  rwa [List.flatMap_map] at hpart

/-- Takes the header and twelve bytes more, fails once, and takes everything after that. -/
def tornDisk : Destination := { writes := [.all, .atMost 12, .fails (.bare .timedOut)] }

/-- After the first byte the one record of the file is cut short. -/
theorem shared_file_framed_torn :
    tornDisk.Calm ∧ ((vacant tornDisk).step .epoch (.sink 0 .header)).result = .sink .ok ∧
      (∀ o ∈ guests, o.shared = true) ∧ (∀ x ∈ twoAnswers.take 1, x.2.ofSessions = true) ∧
      ((sharing tornDisk guests).run (twoAnswers.take 1)).file.length = 36 ∧
      Framed ((sharing tornDisk guests).run (twoAnswers.take 1)).file := by
  have hcalm : tornDisk.Calm := by simp [Destination.Calm, tornDisk]
  have hheader : ((vacant tornDisk).step .epoch (.sink 0 .header)).result = .sink .ok := rfl
  have hshared : ∀ o ∈ guests, o.shared = true := by simp [guests]
  have hsteps : ∀ x ∈ twoAnswers.take 1, x.2.ofSessions = true := by
    simp [twoAnswers, SiteStep.ofSessions]
  obtain ⟨-, -, -, hframed⟩ := shared_file_framed hcalm rfl hheader hshared hsteps
  refine ⟨hcalm, hheader, hshared, hsteps, by decide, hframed ?_ _ (List.prefix_refl _)⟩
  intro before p after hsplit _
  have hone : (((sharing tornDisk guests).ledger (twoAnswers.take 1)).map Prod.snd).length = 1 := rfl
  rw [hsplit, List.length_append, List.length_cons] at hone
  have hafter : after = [] := List.eq_nil_of_length_eq_zero (by omega)
  rw [hafter]
  intro q hq
  cases hq

/-- The second batch lands in the midst of the first one's record. -/
theorem shared_file_unframed :
    tornDisk.Calm ∧ ((vacant tornDisk).step .epoch (.sink 0 .header)).result = .sink .ok ∧
      (∀ o ∈ guests, o.shared = true) ∧ (∀ x ∈ twoAnswers, x.2.ofSessions = true) ∧
      ¬Framed ((sharing tornDisk guests).run twoAnswers).file := by
  refine ⟨by simp [Destination.Calm, tornDisk], rfl, by simp [guests],
    by simp [twoAnswers, SiteStep.ofSessions], ?_⟩
  intro hframed
  have hfile : ((sharing tornDisk guests).run twoAnswers).file = CaptureFile.header ++
      ((sharing tornDisk guests).run twoAnswers).file.drop 24 := by decide
  rw [hfile] at hframed
  exact absurd (hframed.lengths_eq (by decide)) (by decide)

end Site

end Wiretap
