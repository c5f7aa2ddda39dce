import Wiretap.Proofs.Changes
import Wiretap.Proofs.Lifecycle
import Wiretap.Proofs.Trace
import Wiretap.Site

/-! What is in step in every session that can be come to. A session holds its sink until it is closed, has
a channel while it is open, owes a header only to a sink of its own, and keeps its ends and who stopped
first; this is kept by every change that an operation makes, also when a call of the sink fails or panics
half-way. Only that a TCP session has settled its header depends on how the operation ended. The handles
of a shared sink are counted from the same changes: a session lets its handle go when it closes. -/

namespace Wiretap

/-- The second channel differs from the first in nothing but the counters of a flow. -/
def Channel.SameEnds : Channel → Channel → Prop
  | .tcp f, .tcp g => f.SameEnds g
  | .udp near far, .udp near' far' => near' = near ∧ far' = far
  | _, _ => False

theorem Channel.SameEnds.refl (c : Channel) : c.SameEnds c := by
  cases c with
  | tcp flow => exact Flow.SameEnds.refl flow
  | udp near far => exact ⟨rfl, rfl⟩

theorem Channel.SameEnds.trans {a b c : Channel} (hab : a.SameEnds b) (hbc : b.SameEnds c) :
    a.SameEnds c := by
  cases a <;> cases b <;> cases c <;> simp only [Channel.SameEnds] at hab hbc ⊢
  · exact Flow.SameEnds.trans hab hbc
  · exact ⟨hbc.1.trans hab.1, hbc.2.trans hab.2⟩

/-- How the phase of a session moves in one operation. -/
inductive Phase.Moves : Phase → Phase → Prop
  | stays (p : Phase) : Moves p p
  | begins : Moves .init .writing
  | pauses : Moves .writing .paused
  | resumes : Moves .paused .writing
  | closes (p : Phase) : Moves p .closed

theorem Phase.Moves.ne_init {p q : Phase} (h : p.Moves q) (hp : p ≠ .init) : q ≠ .init := by
  cases h with
  | stays => exact hp
  | _ => exact Phase.noConfusion

theorem Phase.Moves.closed {p q : Phase} (h : p.Moves q) (hp : p = .closed) : q = .closed := by
  cases h with
  | stays => exact hp
  | closes => rfl
  | _ => cases hp

namespace Session

/-- What is in step in a session with the given options. -/
structure InStep (options : Options) (s : Session) : Prop where
  given : s.options = options
  holds : s.Holds
  unset : s.phase = .init → s.channel = none
  set : s.phase = .writing ∨ s.phase = .paused → s.channel ≠ none
  owed : s.headerOwed = true → options.shared = false ∧ options.fileHeader = true

/-- What is found once in a session is found there later. -/
structure Leads (s later : Session) : Prop where
  channel : ∀ c, s.channel = some c → ∃ c', later.channel = some c' ∧ c.SameEnds c'
  initiator : ∀ side, s.initiator = some side → later.initiator = some side

/-- A session that is open on a flow owes no header. -/
def Settled (s : Session) : Prop :=
  s.protocol? = some .tcp → s.phase = .writing ∨ s.phase = .paused → s.headerOwed = false

theorem create_inStep (options : Options) : (create options).InStep options where
  given := rfl
  holds := create_holds options
  unset _ := rfl
  set h := by simp at h
  owed h := by simpa [create] using h

theorem Leads.of_eq {s later : Session} (hchannel : later.channel = s.channel)
    (hinitiator : later.initiator = s.initiator) : s.Leads later :=
  ⟨fun c hc => ⟨c, hchannel.trans hc, .refl c⟩, fun _ hside => hinitiator.trans hside⟩

theorem Leads.trans {a b c : Session} (hab : a.Leads b) (hbc : b.Leads c) : a.Leads c := by
  refine ⟨?_, fun side hside => hbc.initiator side (hab.initiator side hside)⟩
  intro x hx
  obtain ⟨y, hy, hxy⟩ := hab.channel x hx
  obtain ⟨z, hz, hyz⟩ := hbc.channel y hy
  exact ⟨z, hz, hxy.trans hyz⟩

theorem Leads.protocol? {s later : Session} (h : s.Leads later) {p : Protocol}
    (hp : s.protocol? = some p) : later.protocol? = some p := by
  obtain ⟨c, hc, rfl⟩ := Option.map_eq_some_iff.mp hp
  obtain ⟨c', hc', hends⟩ := h.channel c hc
  rw [Session.protocol?, hc']
  cases c <;> cases c' <;> first | rfl | exact hends.elim

end Session

/-! ### One operation -/

section

open Session Relation

variable {σ : Type} {sink : Sink σ} {options : Options} {x y : Session × σ}

theorem SessionChange.inStep (h : SessionChange sink x y) (hx : x.1.InStep options) :
    y.1.InStep options := by
  cases h with
  | opens connection channel hphase hchannel =>
      have hheld := hx.holds.mpr (by rw [hphase]; exact Phase.noConfusion)
      exact ⟨hx.given, ⟨fun _ => Phase.noConfusion, fun _ => hheld⟩, Phase.noConfusion,
        fun _ => Option.some_ne_none _, hx.owed⟩
  | @counts s w flow counted hphase hchannel hends =>
      refine ⟨hx.given, hx.holds, ?_, fun _ => Option.some_ne_none _, hx.owed⟩
      intro hinit
      rcases hphase with hphase | hphase <;> exact absurd (hphase.symm.trans hinit) (by decide)
  | marks d hinitiator hchannel => exact ⟨hx.given, hx.holds, hx.unset, hx.set, hx.owed⟩
  | calls c hholds => exact hx
  | settles hholds => exact ⟨hx.given, hx.holds, hx.unset, hx.set, Bool.noConfusion⟩
  | releases hholds =>
      exact ⟨hx.given, ⟨Bool.noConfusion, fun h => absurd rfl h⟩, Phase.noConfusion,
        fun h => h.elim Phase.noConfusion Phase.noConfusion, hx.owed⟩
  | ends hholds =>
      exact ⟨hx.given, ⟨Bool.noConfusion, fun h => absurd rfl h⟩, Phase.noConfusion,
        fun h => h.elim Phase.noConfusion Phase.noConfusion, hx.owed⟩

theorem SessionChange.leads (h : SessionChange sink x y) (hx : x.1.InStep options) :
    x.1.Leads y.1 := by
  cases h with
  | opens connection channel hphase hchannel =>
      refine ⟨fun c hc => ?_, fun _ hside => hside⟩
      rw [hx.unset hphase] at hc
      cases hc
  | counts hphase hchannel hends =>
      refine ⟨fun c hc => ?_, fun _ hside => hside⟩
      rw [hchannel] at hc
      cases hc
      exact ⟨_, rfl, hends⟩
  | marks d hinitiator hchannel =>
      refine ⟨fun c hc => ⟨c, hc, .refl c⟩, fun side hside => ?_⟩
      rw [hinitiator] at hside
      cases hside
  | calls c hholds => exact .of_eq rfl rfl
  | settles hholds => exact .of_eq rfl rfl
  | releases hholds => exact .of_eq rfl rfl
  | ends hholds => exact .of_eq rfl rfl

theorem changes_inStep (h : ReflTransGen (SessionChange sink) x y) (hx : x.1.InStep options) :
    y.1.InStep options ∧ x.1.Leads y.1 := by
  induction h with
  | refl => exact ⟨hx, .of_eq rfl rfl⟩
  | tail _ hstep ih => exact ⟨hstep.inStep ih.1, ih.2.trans (hstep.leads ih.1)⟩

theorem SessionTurn.inStep (h : SessionTurn sink x y) (hx : x.1.InStep options) :
    y.1.InStep options ∧ x.1.Leads y.1 := by
  cases h with
  | changes h => exact changes_inStep h hx
  | pauses hphase =>
      have hheld := hx.holds.mpr (by rw [hphase]; exact Phase.noConfusion)
      exact ⟨⟨hx.given, ⟨fun _ => Phase.noConfusion, fun _ => hheld⟩, Phase.noConfusion,
        fun _ => hx.set (.inl hphase), hx.owed⟩, .of_eq rfl rfl⟩
  | resumes hphase =>
      have hheld := hx.holds.mpr (by rw [hphase]; exact Phase.noConfusion)
      exact ⟨⟨hx.given, ⟨fun _ => Phase.noConfusion, fun _ => hheld⟩, Phase.noConfusion,
        fun _ => hx.set (.inr hphase), hx.owed⟩, .of_eq rfl rfl⟩

/-- Changes begin a session that has not begun and close one that has not closed, and that is all. -/
theorem changes_phase (h : ReflTransGen (SessionChange sink) x y) :
    y.1.phase = x.1.phase ∨ (x.1.phase = .init ∧ y.1.phase = .writing) ∨ y.1.phase = .closed := by
  induction h with
  | refl => exact .inl rfl
  | tail _ hstep ih =>
      cases hstep with
      | opens connection channel hphase hchannel =>
          rcases ih with hsame | ⟨-, hbegun⟩ | hclosed
          · exact .inr (.inl ⟨hsame.symm.trans hphase, rfl⟩)
          · exact absurd (hbegun.symm.trans hphase) (by decide)
          · exact absurd (hclosed.symm.trans hphase) (by decide)
      | releases hholds => exact .inr (.inr rfl)
      | ends hholds => exact .inr (.inr rfl)
      | _ => exact ih

theorem SessionTurn.moves (h : SessionTurn sink x y) : x.1.phase.Moves y.1.phase := by
  cases h with
  | changes h =>
      rcases changes_phase h with hsame | ⟨hinit, hbegun⟩ | hclosed
      · rw [hsame]
        exact .stays _
      · rw [hinit, hbegun]
        exact .begins
      · rw [hclosed]
        exact .closes _
  | @pauses s w hphase =>
      change s.phase.Moves .paused
      rw [hphase]
      exact .pauses
  | @resumes s w hphase =>
      change s.phase.Moves .writing
      rw [hphase]
      exact .resumes

/-! ### Settling the header -/

theorem SessionStep.settled {s : Session} {p : Plan} (h : SessionStep s p) (hheld : s.Holds)
    (hs : s.Settled) : p.session.Settled := by
  intro htcp hactive
  cases h with
  | starts connection channel hphase =>
      cases channel with
      | udp near far => cases htcp
      | tcp flow =>
          have hholds := hheld.mpr (by rw [hphase]; exact Phase.noConfusion)
          simp [planStart, hholds]
  | sends d data flow hphase hchannel =>
      have howed := hs (by rw [protocol?, hchannel]; rfl) hphase
      unfold planTcp
      dsimp only
      split
      · rw [planBatch_headerOwed, howed, Bool.false_and]
      · exact howed
  | reports d data near known far hphase hchannel =>
      rw [protocol?, planUdp_channel, hchannel] at htcp
      cases htcp
  | marks d flow hinitiator hchannel => exact hs htcp hactive
  | pauses hphase => exact hs htcp (.inl hphase)
  | resumes hphase => exact hs htcp (.inr hphase)
  | resets flow hphase hchannel =>
      rw [planBatch_headerOwed, hs (by rw [protocol?, hchannel]; rfl) (.inl hphase), Bool.false_and]
  | closes flow hphase hchannel =>
      have howed := hs (by rw [protocol?, hchannel]; rfl) (.inl hphase)
      rw [planBatch_headerOwed]
      exact congrArg (· && _) howed
  | finishes hphase =>
      unfold planFinish at hactive
      split at hactive <;> exact hactive.elim Phase.noConfusion Phase.noConfusion

theorem SessionPath.settled {s : Session} {p : Plan} (h : SessionPath s p) (hheld : s.Holds)
    (hs : s.Settled) : p.session.Settled := by
  induction h with
  | nil s => exact hs
  | cons hstep _ ih => exact ih (hstep.holds hheld) (hstep.settled hheld hs)

/-- An operation that does not panic settles the header of a flow, or fails and closes the session. -/
theorem Session.handle_settled {s : Session} {w : σ} (hcalm : sink.Calm w) (hheld : s.Holds)
    (hs : s.Settled) (now : Timestamp) (e : Event) : (s.handle sink now e w).session.Settled := by
  cases handle_carries sink now e s w with
  | done hcalls hresult hsession hsink =>
      rw [hsession]
      exact (s.plan_path e).settled hheld hs
  | failed hbreaks hresult hphase hholds =>
      intro _ hactive
      rw [hphase] at hactive
      exact hactive.elim Phase.noConfusion Phase.noConfusion
  | panicked hpanic => exact absurd hpanic hcalm

end

/-! ### Runs -/

section

open Relation

namespace Session

variable {σ : Type} {sink : Sink σ} {options : Options} {s : Session} {w : σ}

/-- What every operation keeps, a run keeps. -/
theorem run_keeps {P : Session × σ → Prop} (hturn : ∀ x y, SessionTurn sink x y → P x → P y)
    (events : List TimedEvent) (h : P (s, w)) :
    P ((s.run sink events w).session, (s.run sink events w).sink) := by
  induction events generalizing s w with
  | nil => exact h
  | cons x rest ih => exact ih (hturn _ _ (handle_turn x.1 x.2 s w) h)

theorem run_inStep (events : List TimedEvent) (hs : s.InStep options) :
    (s.run sink events w).session.InStep options ∧ s.Leads (s.run sink events w).session := by
  refine run_keeps (P := fun y => y.1.InStep options ∧ s.Leads y.1) ?_ events ⟨hs, .of_eq rfl rfl⟩
  rintro x y hturn ⟨hx, hleads⟩
  obtain ⟨hy, hxy⟩ := hturn.inStep hx
  exact ⟨hy, hleads.trans hxy⟩

/-- A calm sink stays calm through an operation. -/
theorem changes_reaches {x y : Session × σ} (h : SessionTurn sink x y) : sink.Reaches x.2 y.2 := by
  cases h with
  | pauses => exact .refl
  | resumes => exact .refl
  | changes h =>
      induction h with
      | refl => exact .refl
      | tail _ hstep ih =>
          cases hstep with
          | calls c => exact .call c ih
          | releases => exact .release ih
          | _ => exact ih

theorem run_settled (events : List TimedEvent) (hcalm : sink.Calm w) (hs : s.InStep options)
    (hsettled : s.Settled) :
    (s.run sink events w).session.Settled ∧ sink.Calm (s.run sink events w).sink := by
  induction events generalizing s w with
  | nil => exact ⟨hsettled, hcalm⟩
  | cons x rest ih =>
      have hturn : SessionTurn sink (s, w) _ := handle_turn x.1 x.2 s w
      exact ih (hcalm.of_reaches (changes_reaches hturn)) (hturn.inStep hs).1
        (handle_settled hcalm hs.holds hsettled x.1 x.2)

theorem create_settled (options : Options) : (create options).Settled := by
  intro htcp
  cases htcp

end Session

end

/-! ### Handles -/

/-- The one sink of a site is shared and has so many handles. -/
def Slot.Counts (handles : Nat) (slots : List Slot) : Prop :=
  ∃ v : Shared Device, slots = [.shared v] ∧ v.handles = handles

theorem Shared.call_handles {σ : Type} (sink : Sink σ) (c : SinkCall) (v : Shared σ) :
    (v.call sink c).2.handles = v.handles := by
  unfold Shared.call
  split
  · rfl
  · split <;> rfl

namespace Slot.Counts

variable {n : Nat} {slots : List Slot}

theorem call (h : Slot.Counts n slots) (c : SinkCall) :
    Slot.Counts n ((Sink.slot.at 0).call c slots).2 := by
  obtain ⟨v, rfl, hv⟩ := h
  exact ⟨(v.call Sink.device c).2, rfl, (v.call_handles Sink.device c).trans hv⟩

theorem release (h : Slot.Counts n slots) : Slot.Counts (n - 1) ((Sink.slot.at 0).release slots) := by
  obtain ⟨v, rfl, rfl⟩ := h
  exact ⟨v.release, rfl, rfl⟩

theorem share (h : Slot.Counts n slots) : Slot.Counts (n + 1) (slots.modify 0 Slot.share) := by
  obtain ⟨v, rfl, rfl⟩ := h
  exact ⟨v.share, rfl, rfl⟩

/-- A session that lets its sink go gives back its handle, and no change does otherwise. -/
theorem change {s s' : Session} {slots' : List Slot}
    (h : SessionChange (Sink.slot.at 0) (s, slots) (s', slots'))
    (hslots : Slot.Counts (n + s.holdsSink.toNat) slots) :
    Slot.Counts (n + s'.holdsSink.toNat) slots' := by
  cases h with
  | calls c hholds => exact hslots.call c
  | releases hholds =>
      rw [hholds] at hslots
      exact hslots.release
  | ends hholds =>
      rw [hholds] at hslots
      exact hslots
  | _ => exact hslots

theorem turn {x y : Session × List Slot} (h : SessionTurn (Sink.slot.at 0) x y)
    (hslots : Slot.Counts (n + x.1.holdsSink.toNat) x.2) :
    Slot.Counts (n + y.1.holdsSink.toNat) y.2 := by
  cases h with
  | pauses hphase => exact hslots
  | resumes hphase => exact hslots
  | changes h =>
      induction h with
      | refl => exact hslots
      | tail _ hstep ih => exact change hstep ih

end Slot.Counts

namespace Site

/-- A session that was not let go and is not closed. -/
def isLive (seat : Seat) : Bool := seat.present && seat.session.phase != .closed

/-- How many sessions of a site are live. -/
def live (site : Site) : Nat := site.seats.countP isLive

/-- The sites that come of sharing a sink, with so many handles left to its owner: it copies and drops
handles, makes calls through them and gives a handle to every session that it makes, while the sessions
are told what happens and are let go. -/
inductive Lent (w : Device) : Nat → Site → Prop
  | shared : Lent w 1 { slots := [.shared { inner := w }] }
  | copied {n : Nat} {site : Site} (h : Lent w n site) :
      Lent w (n + 1) { site with slots := site.slots.modify 0 Slot.share }
  | dropped {n : Nat} {site : Site} (h : Lent w (n + 1) site) (now : Timestamp) :
      Lent w n (site.step now (.sink 0 .drop)).site
  | called {n : Nat} {site : Site} (h : Lent w n site) (now : Timestamp) (c : SinkCall) :
      Lent w n (site.step now (.sink 0 (.call c))).site
  | headed {n : Nat} {site : Site} (h : Lent w n site) (now : Timestamp) :
      Lent w n (site.step now (.sink 0 .header)).site
  | seated {n : Nat} {site : Site} (h : Lent w n site) (o : Options) (ho : o.shared = true) :
      Lent w n (site.seat 0 o)
  | told {n : Nat} {site : Site} (h : Lent w n site) (now : Timestamp) (i : Nat) (e : Event) :
      Lent w n (site.step now (.session i e)).site
  | letGo {n : Nat} {site : Site} (h : Lent w n site) (now : Timestamp) (i : Nat) :
      Lent w n (site.step now (.letGo i)).site

/-- The handles of a site are those of the owner and one for each live session. -/
structure Tallies (n : Nat) (site : Site) : Prop where
  slots : Slot.Counts (n + site.live) site.slots
  seats : ∀ seat ∈ site.seats, seat.sink = 0 ∧ seat.session.InStep seat.session.options

variable {n : Nat} {site : Site}

/-- Where a seat is changed, the other live ones are as many as before. -/
theorem live_set {seats : List Seat} {i : Nat} {seat : Seat} (after : Seat)
    (hseat : seats[i]? = some seat) :
    ∃ others, seats.countP isLive = others + (isLive seat).toNat ∧
      (seats.set i after).countP isLive = others + (isLive after).toNat := by
  obtain ⟨hi, rfl⟩ := List.getElem?_eq_some_iff.mp hseat
  have hcounted : (isLive seats[i]).toNat ≤ seats.countP isLive := by
    cases hlive : isLive seats[i] with
    | false => exact Nat.zero_le _
    | true => exact List.countP_pos_iff.mpr ⟨_, List.getElem_mem hi, hlive⟩
  have htoNat : ∀ b : Bool, (if b = true then 1 else 0) = b.toNat := by decide
  refine ⟨seats.countP isLive - (isLive seats[i]).toNat, by omega, ?_⟩
  rw [List.countP_set hi, htoNat, htoNat]

/-- A seat is changed and nothing else but the handle that it may have given back. -/
theorem Tallies.set {i : Nat} {seat after : Seat} {slots : List Slot} (h : Tallies n site)
    (hseat : site.seats[i]? = some seat) (hsink : after.sink = 0)
    (hstep : after.session.InStep after.session.options)
    (hslots : ∀ m, Slot.Counts (m + (isLive seat).toNat) site.slots →
      Slot.Counts (m + (isLive after).toNat) slots) :
    Tallies n { slots, seats := site.seats.set i after } := by
  obtain ⟨others, hbefore, hafter⟩ := live_set after hseat
  refine ⟨?_, ?_⟩
  · have hcounts := h.slots
    rw [live, hbefore, ← Nat.add_assoc] at hcounts
    rw [live, hafter, ← Nat.add_assoc]
    exact hslots (n + others) hcounts
  · intro other hother
    rcases List.mem_or_eq_of_mem_set hother with hother | rfl
    · exact h.seats other hother
    · exact ⟨hsink, hstep⟩

theorem isLive_eq_holdsSink (seat : Seat) (hpresent : seat.present = true)
    (hholds : seat.session.Holds) : isLive seat = seat.session.holdsSink := by
  rw [Bool.eq_iff_iff, isLive, hpresent, Bool.true_and, bne_iff_ne]
  exact hholds.symm

theorem Tallies.told (h : Tallies n site) (now : Timestamp) (i : Nat) (e : Event) :
    Tallies n (site.step now (.session i e)).site := by
  simp only [step]
  split
  · exact h
  · rename_i seat hseat
    obtain ⟨hsink, hstep⟩ := h.seats seat (List.mem_of_getElem? hseat)
    split
    · rename_i hpresent
      have hturn : SessionTurn (Sink.slot.at seat.sink) (seat.session, site.slots) _ :=
        Session.handle_turn now e seat.session site.slots
      generalize seat.session.handle (Sink.slot.at seat.sink) now e site.slots = r at hturn ⊢
      have hafter := (hturn.inStep hstep).1
      refine h.set hseat hsink ?_ ?_
      · exact hafter.given.symm ▸ hafter
      · intro m hcounts
        rw [isLive_eq_holdsSink seat hpresent hstep.holds] at hcounts
        rw [isLive_eq_holdsSink { seat with session := r.session } hpresent hafter.holds]
        rw [hsink] at hturn ⊢
        exact Slot.Counts.turn hturn hcounts
    · exact h

theorem Tallies.letGo (h : Tallies n site) (now : Timestamp) (i : Nat) :
    Tallies n (site.step now (.letGo i)).site := by
  simp only [step]
  split
  · exact h
  · rename_i seat hseat
    obtain ⟨hsink, hstep⟩ := h.seats seat (List.mem_of_getElem? hseat)
    split
    · rename_i hpresent
      refine h.set hseat hsink hstep ?_
      intro m hcounts
      rw [isLive_eq_holdsSink seat hpresent hstep.holds] at hcounts
      rw [Session.drop, hsink]
      split
      · rename_i hholds
        rw [hholds] at hcounts
        exact hcounts.release
      · rename_i hholds
        rw [Bool.eq_false_iff.mpr hholds] at hcounts
        exact hcounts
    · exact h

/-- **The handles of a shared sink are those of its owner and one for each live session.** -/
theorem Lent.tallies {w : Device} (h : Lent w n site) : Tallies n site := by
  induction h with
  | shared => exact ⟨⟨_, rfl, rfl⟩, fun seat hseat => absurd hseat List.not_mem_nil⟩
  | @copied n site _ ih =>
      refine ⟨?_, ih.seats⟩
      have hcounts := ih.slots.share
      rwa [Nat.add_right_comm] at hcounts
  | @dropped n site _ now ih =>
      refine ⟨?_, ih.seats⟩
      have hcounts := ih.slots
      rw [Nat.add_right_comm] at hcounts
      exact hcounts.release
  | called _ now c ih => exact ⟨ih.slots.call c, ih.seats⟩
  | headed _ now ih => exact ⟨ih.slots.call _, ih.seats⟩
  | @seated n site _ o ho ih =>
      refine ⟨?_, ?_⟩
      · have hlive : (site.seat 0 o).live = site.live + 1 := List.countP_append
        rw [hlive, ← Nat.add_assoc]
        exact ih.slots.share
      · intro seat hseat
        rcases List.mem_append.mp hseat with hseat | hseat
        · exact ih.seats seat hseat
        · rw [List.mem_singleton] at hseat
          rw [hseat]
          exact ⟨rfl, Session.create_inStep o⟩
  | told _ now i e ih => exact ih.told now i e
  | letGo _ now i ih => exact ih.letGo now i

theorem Tallies.handles? (h : Tallies n site) : site.handles? 0 = some (n + site.live) := by
  obtain ⟨v, hslots, hv⟩ := h.slots
  rw [Site.handles?, hslots]
  exact congrArg some hv

end Site

namespace Session

/-- A closed session does nothing any more: whatever it is told is done, and its sink is left alone. -/
theorem run_closed {σ : Type} {sink : Sink σ} {s : Session} {w : σ} (hcalm : sink.Calm w)
    (hheld : s.Holds) (hclosed : s.phase = .closed) (events : List TimedEvent) :
    let later := s.run sink events w
    later.results = List.replicate events.length .done ∧ later.session.phase = .closed ∧
      later.sink = w := by
  have hreleased : s.holdsSink = false :=
    Bool.eq_false_iff.mpr fun hholds => hheld.mp hholds hclosed
  rw [run_released events hcalm hreleased]
  exact ⟨rfl, ((planAll_path (events.map Prod.snd) s).closed hclosed).2, rfl⟩

/-- **The fields of a session are in step in every state that can be come to**, whatever calls of the sink
fail, and a shared sink has one handle for each live session besides those of its owner. -/
theorem fields_in_step (options : Options) :
    (∀ {σ : Type} (sink : Sink σ) (w : σ), sink.Calm w → ∀ events : List TimedEvent,
      let course := (create options).run sink.traced events (w, [])
      course.session.InStep options ∧ course.session.Settled ∧
        (∀ now e, course.session.phase.Moves
          (course.session.handle sink.traced now e course.sink).session.phase) ∧
        (∀ more, course.session.Leads
          (course.session.run sink.traced more course.sink).session) ∧
        (course.session.phase = .closed → ∀ more,
          let later := course.session.run sink.traced more course.sink
          later.results = List.replicate more.length .done ∧ later.session.phase = .closed ∧
            later.sink = course.sink)) ∧
      ∀ w n site, Site.Lent w n site → site.handles? 0 = some (n + site.live) := by
  refine ⟨?_, fun w n site h => h.tallies.handles?⟩
  intro σ sink w hcalm events
  have hcreate := create_inStep options
  have hinStep : ((create options).run sink.traced events (w, [])).session.InStep options :=
    (run_inStep events hcreate).1
  obtain ⟨hsettled, hcalm'⟩ :=
    run_settled events (hcalm.traced []) hcreate (create_settled options)
  refine ⟨hinStep, hsettled, ?_, ?_, ?_⟩
  · intro now e
    exact (handle_turn now e _ _).moves
  · intro more
    exact (run_inStep more hinStep).2
  · intro hclosed more
    exact run_closed hcalm' hinStep.holds hclosed more

/-- A guest of a shared sink. -/
def lodger : Options :=
  { id := "lodger", shared := true,
    forced := some (.tcp (.v4 ⟨10, 0, 0, 2⟩ 80) (.v4 ⟨10, 0, 0, 1⟩ 4000) true) }

/-- The second write fails. -/
def fullPipe : Rehearsed := { answers := [.ok, .ok, .failed (.bare .writeZero)] }

/-- The payload does not reach the pipe any more. -/
def lodgerEvents : List TimedEvent :=
  [.active none, .shutdown .inbound, .payload .outbound ⟨#[97]⟩].map fun e => (.epoch, e)

def emptyFile : Device := .writer { destination := {} }

/-- Two sessions on a shared sink whose owner let it go: the one was closed, the other one writes. -/
def lodging : Site :=
  let site := (Site.seat { slots := [.shared { inner := emptyFile }] } 0 lodger).seat 0 lodger
  let site := (site.step .epoch (.session 0 .close)).site
  let site := (site.step .epoch (.sink 0 .drop)).site
  (site.step .epoch (.session 1 (.active none))).site

theorem fields_in_step_lodger :
    let course := (create lodger).run Sink.rehearsed.traced lodgerEvents (fullPipe, [])
    Sink.rehearsed.Calm fullPipe ∧ course.session.phase = .closed ∧
      course.session.InStep lodger ∧ course.session.initiator = some .client ∧
      ((course.session.run Sink.rehearsed.traced [(.epoch, .error), (.epoch, .close)]
        course.sink).results = [.done, .done]) ∧
      Site.Lent emptyFile 0 lodging ∧ lodging.live = 1 ∧ lodging.handles? 0 = some 1 := by
  have hcalm : Sink.rehearsed.Calm fullPipe := Sink.rehearsed_calm (by decide)
  obtain ⟨hsessions, hsites⟩ := fields_in_step lodger
  obtain ⟨hinStep, -, -, -, hend⟩ := hsessions Sink.rehearsed fullPipe hcalm lodgerEvents
  have hclosed : ((create lodger).run Sink.rehearsed.traced lodgerEvents
      (fullPipe, [])).session.phase = .closed := by decide
  have hlent : Site.Lent emptyFile 0 lodging :=
    .told (.dropped (.told (.seated (.seated .shared lodger rfl) lodger rfl) .epoch 0 .close) .epoch)
      .epoch 1 (.active none)
  have hlive : lodging.live = 1 := by decide
  have hhandles := hsites emptyFile 0 lodging hlent
  rw [hlive] at hhandles
  exact ⟨hcalm, hclosed, hinStep, by decide, (hend hclosed _).1, hlent, hlive, hhandles⟩

end Session

end Wiretap
