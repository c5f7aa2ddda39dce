import Wiretap.Proofs.Deeds

/-! What an operation does to its session and its sink, without what it has to do with the event: one small
change after another. What holds of every session at every sink is proved from these changes; pausing and
resuming are operations of their own. -/

namespace Wiretap

/-- One thing that an operation does to its session and its sink. -/
inductive SessionChange {σ : Type} (sink : Sink σ) : Session × σ → Session × σ → Prop
  | opens {s : Session} {w : σ} (connection : Option Connection) (channel : Channel)
      (hphase : s.phase = .init) (hchannel : s.options.channel? connection = some channel) :
      SessionChange sink (s, w) ({ s with channel := some channel.opened, phase := .writing }, w)
  | counts {s : Session} {w : σ} {flow counted : Flow}
      (hphase : s.phase = .writing ∨ s.phase = .paused) (hchannel : s.channel = some (.tcp flow))
      (hends : flow.SameEnds counted) :
      SessionChange sink (s, w) ({ s with channel := some (.tcp counted) }, w)
  | marks {s : Session} {w : σ} {flow : Flow} (d : Direction) (hinitiator : s.initiator = none)
      (hchannel : s.channel = some (.tcp flow)) :
      SessionChange sink (s, w) ({ s with initiator := some (flow.sender d) }, w)
  | calls {s : Session} {w : σ} (c : SinkCall) (hholds : s.holdsSink = true) :
      SessionChange sink (s, w) (s, (sink.call c w).2)
  | settles {s : Session} {w : σ} (hholds : s.holdsSink = true) :
      SessionChange sink (s, w) ({ s with headerOwed := false }, w)
  | releases {s : Session} {w : σ} (hholds : s.holdsSink = true) :
      SessionChange sink (s, w) (s.ended, sink.release w)
  | ends {s : Session} {w : σ} (hholds : s.holdsSink = false) : SessionChange sink (s, w) (s.ended, w)

/-- What one operation does. -/
inductive SessionTurn {σ : Type} (sink : Sink σ) : Session × σ → Session × σ → Prop
  | changes {x y : Session × σ} (h : Relation.ReflTransGen (SessionChange sink) x y) :
      SessionTurn sink x y
  | pauses {s : Session} {w : σ} (hphase : s.phase = .writing) :
      SessionTurn sink (s, w) ({ s with phase := .paused }, w)
  | resumes {s : Session} {w : σ} (hphase : s.phase = .paused) :
      SessionTurn sink (s, w) ({ s with phase := .writing }, w)

open Relation

variable {σ : Type} {sink : Sink σ} {s : Session} {w : σ}

theorem append_changes (bytes : Bytes) (hholds : s.holdsSink = true) :
    ReflTransGen (SessionChange sink) (s, w) (s, (sink.append bytes w).2) := by
  have hwrite : SessionChange sink (s, w) (s, (sink.call (.write bytes) w).2) := .calls _ hholds
  unfold Sink.append
  split
  · rename_i x hcall
    rw [hcall] at hwrite
    exact (ReflTransGen.single hwrite).tail (.calls .flush hholds)
  · exact .single hwrite

/-- A deed is a few changes, unless the session is paused or resumed. -/
theorem SessionDeed.changes {now : Timestamp} {e : Event} {x y : Session × σ}
    (h : SessionDeed sink now e x y) (hpause : e ≠ .pause) (hresume : e ≠ .resume) :
    ReflTransGen (SessionChange sink) x y := by
  cases h with
  | opens channel hphase hchannel => exact .single (.opens e.report? channel hphase hchannel)
  | counts hphase hchannel hends => exact .single (.counts hphase hchannel hends)
  | marks d htold hinitiator hchannel => exact .single (.marks d hinitiator hchannel)
  | appends header packets hholds hends => exact append_changes _ hholds
  | closes hholds => exact .single (.calls .close hholds)
  | settles hholds => exact .single (.settles hholds)
  | releases hholds => exact .single (.releases hholds)
  | ends hholds => exact .single (.ends hholds)
  | pauses htold => exact absurd htold hpause
  | resumes htold => exact absurd htold hresume

theorem Session.Deeds.turn {now : Timestamp} {e : Event} {r : Reply σ} (h : s.Deeds sink now e w r)
    (hpause : e ≠ .pause) (hresume : e ≠ .resume) : SessionTurn sink (s, w) (r.session, r.sink) := by
  have hchanges : SessionDeed sink now e ≤ ReflTransGen (SessionChange sink) :=
    fun _ _ hdeed => hdeed.changes hpause hresume
  exact .changes (reflTransGen_closed hchanges _ _ h)

/-- **Every operation but pausing and resuming is one change after another.** -/
theorem Session.handle_turn (now : Timestamp) (e : Event) (s : Session) (w : σ) :
    SessionTurn sink (s, w) ((s.handle sink now e w).session, (s.handle sink now e w).sink) := by
  have hdeeds : s.Deeds sink now e w (s.handle sink now e w) := handle_deeds now e s w
  cases e with
  | pause =>
      change SessionTurn sink (s, w) ((s.pause w).session, (s.pause w).sink)
      unfold pause
      split
      · exact .pauses ‹_›
      · exact .changes .refl
  | resume =>
      change SessionTurn sink (s, w) ((s.resume w).session, (s.resume w).sink)
      unfold resume
      split
      · exact .resumes ‹_›
      · exact .changes .refl
  | _ => exact hdeeds.turn Event.noConfusion Event.noConfusion

end Wiretap
