import Wiretap.Proofs.Paths
import Mathlib.Logic.Relation

/-! What an operation does to its session and its sink, whatever the sink answers and panics included. It
is one deed after another: a channel is opened, a flow is counted, packets are appended, the sink is closed
or let go. Each deed says what it has of the event that is being told: a channel is opened on what is
reported, the ends of a packet are those of the session or the peer of the datagram, and only a half-close
marks the side that stopped first. -/

namespace Wiretap

/-- The second flow differs from the first in nothing but its counters. -/
structure Flow.SameEnds (f g : Flow) : Prop where
  client : g.client = f.client
  server : g.server = f.server
  localIsServer : g.localIsServer = f.localIsServer

namespace Flow

theorem SameEnds.refl (f : Flow) : f.SameEnds f := ⟨rfl, rfl, rfl⟩

theorem SameEnds.trans {f g h : Flow} (hfg : f.SameEnds g) (hgh : g.SameEnds h) : f.SameEnds h :=
  ⟨hgh.client.trans hfg.client, hgh.server.trans hfg.server,
    hgh.localIsServer.trans hfg.localIsServer⟩

theorem sameEnds_setSeq (f : Flow) (n : UInt32) (side : Side) : f.SameEnds (f.setSeq n side) := by
  cases side <;> exact ⟨rfl, rfl, rfl⟩

theorem sameEnds_sendAll (d : Direction) (parts : List ByteArray) (f : Flow) :
    f.SameEnds (f.sendAll d parts).2 := by
  induction parts generalizing f with
  | nil => exact .refl f
  | cons part parts ih => exact (f.sameEnds_setSeq _ _).trans (ih _)

theorem sameEnds_close (f : Flow) (side : Side) : f.SameEnds (f.close side).2 :=
  (f.sameEnds_setSeq _ _).trans (sameEnds_setSeq _ _ _)

theorem SameEnds.endpoint {f g : Flow} (h : f.SameEnds g) (side : Side) :
    g.endpoint side = f.endpoint side := by
  cases side with
  | client => exact h.client
  | server => exact h.server

theorem SameEnds.sender {f g : Flow} (h : f.SameEnds g) (d : Direction) : g.sender d = f.sender d := by
  cases d <;> simp only [Flow.sender, h.localIsServer]

end Flow

/-! ### Ends -/

/-- Source and destination. -/
def Packet.ends : Packet → List Endpoint
  | .tcp src dst _ _ _ _ => [src, dst]
  | .udp src dst _ => [src, dst]

/-- The two sides of a flow. -/
def Flow.ends (f : Flow) : List Endpoint := [f.client, f.server]

/-- The ends of a channel as far as they are known. -/
def Channel.ends : Channel → List Endpoint
  | .tcp flow => flow.ends
  | .udp near far => near :: far.toList

/-- The ends that a session frames its packets with. -/
def Session.ends (s : Session) : List Endpoint := (s.channel.map Channel.ends).getD []

/-- What an event reports of the connection. -/
def Event.report? : Event → Option Connection
  | .active connection => connection
  | _ => none

/-- The end that stands for the far one during an event. -/
def Event.peers : Event → List Endpoint
  | .datagram _ _ peer => [peer.endpoint]
  | _ => []

namespace Flow

theorem SameEnds.ends {f g : Flow} (h : f.SameEnds g) : g.ends = f.ends := by
  rw [Flow.ends, h.client, h.server, Flow.ends]

theorem ends_segment (f : Flow) (sender : Side) (flags : TcpFlags) (seq ack : UInt32)
    (payload : Bytes) : ((f.segment sender flags seq ack).packet payload).ends ⊆ f.ends := by
  cases sender with
  | client => exact List.Subset.refl _
  | server => exact (List.Perm.swap f.client f.server []).subset

theorem ends_handshake (f : Flow) : ∀ p ∈ barePackets f.handshake.1, p.ends ⊆ f.ends := by
  simp only [barePackets, handshake, List.map_cons, List.map_nil, List.forall_mem_cons]
  exact ⟨f.ends_segment _ _ _ _ _, f.ends_segment _ _ _ _ _, f.ends_segment _ _ _ _ _,
    List.forall_mem_nil _⟩

theorem ends_close (f : Flow) (side : Side) : ∀ p ∈ barePackets (f.close side).1, p.ends ⊆ f.ends := by
  simp only [barePackets, close, List.map_cons, List.map_nil, List.forall_mem_cons]
  exact ⟨f.ends_segment _ _ _ _ _, f.ends_segment _ _ _ _ _, f.ends_segment _ _ _ _ _,
    List.forall_mem_nil _⟩

theorem ends_reset (f : Flow) (side : Side) : ∀ p ∈ barePackets [f.reset side], p.ends ⊆ f.ends := by
  simp only [barePackets, reset, List.map_cons, List.map_nil, List.forall_mem_cons]
  exact ⟨f.ends_segment _ _ _ _ _, List.forall_mem_nil _⟩

theorem ends_sendAll (d : Direction) (parts : List ByteArray) (f : Flow) :
    ∀ p ∈ (f.sendAll d parts).1.flatMap SentPiece.packets, p.ends ⊆ f.ends := by
  induction parts generalizing f with
  | nil => exact List.forall_mem_nil _
  | cons part parts ih =>
      have hsame : f.SameEnds (f.send d (.ofNat part.size)).2 := f.sameEnds_setSeq _ _
      have hrest := ih (f.send d (.ofNat part.size)).2
      rw [hsame.ends] at hrest
      simp only [sendAll, List.flatMap_cons, SentPiece.packets, List.cons_append, List.nil_append,
        List.forall_mem_cons]
      exact ⟨f.ends_segment _ _ _ _ _, f.ends_segment _ _ _ _ _, hrest⟩

end Flow

theorem ends_datagram {ends : List Endpoint} {near far : Endpoint} (hnear : near ∈ ends)
    (hfar : far ∈ ends) (d : Direction) (data : Bytes) :
    (Packet.udp (Session.datagramEnds d near far).1 (Session.datagramEnds d near far).2 data).ends ⊆
      ends := by
  cases d with
  | outbound => exact List.cons_subset.mpr ⟨hnear, List.cons_subset.mpr ⟨hfar, List.nil_subset _⟩⟩
  | inbound => exact List.cons_subset.mpr ⟨hfar, List.cons_subset.mpr ⟨hnear, List.nil_subset _⟩⟩

/-! ### Deeds -/

/-- The channel once a session is active on it: of a flow the handshake is over. -/
def Channel.opened : Channel → Channel
  | .tcp flow => .tcp flow.handshake.2
  | .udp near far => .udp near far

theorem Channel.ends_opened (c : Channel) : c.opened.ends = c.ends := by cases c <;> rfl

theorem Act.content_header (now : Timestamp) : Act.content now true [] = CaptureFile.header := rfl

/-- One thing that is done to a session and its sink when it is told of the event. -/
inductive SessionDeed {σ : Type} (sink : Sink σ) (now : Timestamp) (e : Event) :
    Session × σ → Session × σ → Prop
  | opens {s : Session} {w : σ} (channel : Channel) (hphase : s.phase = .init)
      (hchannel : s.options.channel? e.report? = some channel) :
      SessionDeed sink now e (s, w) ({ s with channel := some channel.opened, phase := .writing }, w)
  | counts {s : Session} {w : σ} {flow counted : Flow}
      (hphase : s.phase = .writing ∨ s.phase = .paused) (hchannel : s.channel = some (.tcp flow))
      (hends : flow.SameEnds counted) :
      SessionDeed sink now e (s, w) ({ s with channel := some (.tcp counted) }, w)
  | marks {s : Session} {w : σ} {flow : Flow} (d : Direction) (htold : e = .shutdown d)
      (hinitiator : s.initiator = none) (hchannel : s.channel = some (.tcp flow)) :
      SessionDeed sink now e (s, w) ({ s with initiator := some (flow.sender d) }, w)
  | appends {s : Session} {w : σ} (header : Bool) (packets : List Packet)
      (hholds : s.holdsSink = true) (hends : ∀ p ∈ packets, p.ends ⊆ s.ends ++ e.peers) :
      SessionDeed sink now e (s, w) (s, (sink.append (Act.content now header packets) w).2)
  | closes {s : Session} {w : σ} (hholds : s.holdsSink = true) :
      SessionDeed sink now e (s, w) (s, (sink.call .close w).2)
  | settles {s : Session} {w : σ} (hholds : s.holdsSink = true) :
      SessionDeed sink now e (s, w) ({ s with headerOwed := false }, w)
  | releases {s : Session} {w : σ} (hholds : s.holdsSink = true) :
      SessionDeed sink now e (s, w) (s.ended, sink.release w)
  | ends {s : Session} {w : σ} (hholds : s.holdsSink = false) :
      SessionDeed sink now e (s, w) (s.ended, w)
  | pauses {s : Session} {w : σ} (htold : e = .pause) (hphase : s.phase = .writing) :
      SessionDeed sink now e (s, w) ({ s with phase := .paused }, w)
  | resumes {s : Session} {w : σ} (htold : e = .resume) (hphase : s.phase = .paused) :
      SessionDeed sink now e (s, w) ({ s with phase := .writing }, w)

namespace Session

open Relation

variable {σ : Type} {sink : Sink σ} {now : Timestamp} {e : Event} {s : Session} {w : σ}

/-- The reply comes of the session and the sink by deeds. -/
def Deeds (sink : Sink σ) (now : Timestamp) (e : Event) (s : Session) (w : σ) (r : Reply σ) : Prop :=
  ReflTransGen (SessionDeed sink now e) (s, w) (r.session, r.sink)

theorem Deeds.nothing (s : Session) (w : σ) (notes : List Note) :
    s.Deeds sink now e w (s.quiet w notes) := .refl

theorem Deeds.andThen {r : Reply σ} {next : Session → σ → Reply σ} (h : s.Deeds sink now e w r)
    (hnext : r.session.Deeds sink now e r.sink (next r.session r.sink)) :
    s.Deeds sink now e w (r.andThen next) := by
  unfold Reply.andThen
  split
  · exact h.trans hnext
  · exact h

theorem writeBatch_deeds {packets : List Packet} (hends : ∀ p ∈ packets, p.ends ⊆ s.ends ++ e.peers) :
    s.Deeds sink now e w (s.writeBatch sink (packets.map (Packet.record now)) w) := by
  unfold writeBatch
  by_cases hholds : s.holdsSink = true
  · rw [if_pos hholds]
    have happend : ReflTransGen (SessionDeed sink now e) (s, w)
        (s, (sink.append (Act.content now s.headerOwed packets) w).2) :=
      .single (.appends s.headerOwed packets hholds hends)
    unfold Act.content at happend
    dsimp only
    generalize sink.append _ w = a at happend
    obtain ⟨o, x⟩ := a
    cases o with
    | ok => exact happend.tail (.settles hholds)
    | panicked => exact happend
    | failed e =>
        have hclose := happend.tail (.closes hholds)
        dsimp only
        split
        · exact happend.tail (.releases hholds)
        · split
          all_goals
            rename_i hcall
            rw [hcall] at hclose
            exact hclose.tail (.releases hholds)
  · rw [if_neg hholds]
    exact .nothing s w []

theorem finish_deeds (s : Session) (w : σ) : s.Deeds sink now e w (s.finish sink w) := by
  unfold finish
  by_cases hholds : s.holdsSink = true
  · rw [if_pos hholds]
    by_cases hshared : s.options.shared = true
    · rw [if_pos hshared]
      exact .single (.releases hholds)
    · rw [if_neg hshared]
      have hheader : ReflTransGen (SessionDeed sink now e) (s, w) (s, (s.settleHeader sink w).2) := by
        unfold settleHeader
        split
        · rw [← Act.content_header now]
          exact .single (.appends true [] hholds (List.forall_mem_nil _))
        · exact .refl
      -- the sink is let go last, whatever came of the header and of closing it
      have hreleases : ∀ x, ReflTransGen (SessionDeed sink now e) (s, x)
          ({ s.ended with headerOwed := false }, sink.release x) := by
        intro x
        have hsettles : SessionDeed sink now e (s, x) ({ s with headerOwed := false }, x) :=
          .settles hholds
        exact (ReflTransGen.single hsettles).tail
          (SessionDeed.releases (s := { s with headerOwed := false }) hholds)
      dsimp only
      generalize s.settleHeader sink w = a at hheader
      obtain ⟨o, x⟩ := a
      have hclose := hheader.tail (.closes hholds)
      generalize hcall : sink.call .close x = b at hclose
      obtain ⟨o', y⟩ := b
      cases o with
      | panicked => exact hheader.trans (hreleases x)
      | ok => cases o' <;> simp only [hcall] <;> exact hclose.trans (hreleases y)
      | failed e => cases o' <;> simp only [hcall] <;> exact hclose.trans (hreleases y)
  · rw [if_neg hholds]
    exact .single (.ends (Bool.eq_false_iff.mpr hholds))

theorem start_deeds {channel : Channel} (addresses : List SocketAddress) (hphase : s.phase = .init)
    (hchannel : s.options.channel? e.report? = some channel) :
    s.Deeds sink now e w (s.start sink now addresses channel w) := by
  have hopens : SessionDeed sink now e (s, w) _ := .opens channel hphase hchannel
  cases channel with
  | udp near far => exact .single hopens
  | tcp flow =>
      refine Deeds.andThen (.single hopens) ?_
      rw [bareRecords_eq]
      exact writeBatch_deeds fun p hp =>
        List.subset_append_of_subset_left _ (flow.ends_handshake p hp)

theorem activate_deeds (s : Session) (w : σ) :
    s.Deeds sink now e w (s.activate sink now e.report? w) := by
  unfold activate
  split
  · rename_i hphase
    split
    · rename_i f hforced
      exact start_deeds f.addresses hphase (Options.channel?_forced hforced _)
    · rename_i c hforced hreport
      refine start_deeds c.addresses hphase ?_
      rw [Options.channel?, hforced, hreport]
      rfl
    · exact .nothing s w _
  · exact .nothing s w _

theorem ensureActive_deeds (hreport : e.report? = none) (s : Session) (w : σ) :
    s.Deeds sink now e w (s.ensureActive sink now w) := by
  unfold ensureActive
  split
  · rw [← hreport]
    exact activate_deeds s w
  · exact .nothing s w []

theorem recordTcp_deeds {flow : Flow} (d : Direction) (data : ByteArray)
    (hphase : s.phase = .writing ∨ s.phase = .paused) (hchannel : s.channel = some (.tcp flow)) :
    s.Deeds sink now e w (s.recordTcp sink now d data flow w) := by
  have hsame : flow.SameEnds (flow.sendAll d (pieces data)).2 := flow.sameEnds_sendAll d (pieces data)
  have hcounts : SessionDeed sink now e (s, w) _ := .counts hphase hchannel hsame
  unfold recordTcp
  dsimp only
  split
  · refine Deeds.andThen (.single hcounts) ?_
    rw [SentPiece.records_eq]
    refine writeBatch_deeds fun p hp => ?_
    have hends := flow.ends_sendAll d (pieces data) p hp
    rw [← hsame.ends] at hends
    exact List.subset_append_of_subset_left _ hends
  · exact .single hcounts

theorem recordUdp_deeds {near : Endpoint} {far : Option Endpoint} (d : Direction) (data : ByteArray)
    (hnear : near ∈ s.ends ++ e.peers) (hfar : ∀ x, far = some x → x ∈ s.ends ++ e.peers) :
    s.Deeds sink now e w (s.recordUdp sink now d data near far w) := by
  unfold recordUdp
  split
  · split
    · exact .nothing s w _
    · rename_i far
      split
      · exact .nothing s w _
      · refine Deeds.andThen (.nothing s w _) ?_
        have hends : ∀ p ∈ [Packet.udp (datagramEnds d near far).1 (datagramEnds d near far).2
            data.data.toList], p.ends ⊆ s.ends ++ e.peers := by
          rw [List.forall_mem_singleton]
          exact ends_datagram hnear (hfar far rfl) d _
        cases d <;> exact writeBatch_deeds hends
  · exact .nothing s w []

theorem ends_eq {channel : Channel} (hchannel : s.channel = some channel) : s.ends = channel.ends := by
  rw [ends, hchannel]
  rfl

theorem payload_deeds (d : Direction) (data : ByteArray) (hreport : e.report? = none) (s : Session)
    (w : σ) : s.Deeds sink now e w (s.payload sink now d data w) := by
  refine Deeds.andThen (ensureActive_deeds hreport s w) ?_
  generalize (s.ensureActive sink now w).session = s
  generalize (s.ensureActive sink now w).sink = w
  split
  · exact .nothing s _ _
  · rename_i hphase
    split
    · exact .nothing s _ _
    · split
      · exact recordTcp_deeds d data (active_of_not_idle hphase) ‹_›
      · rename_i near far hchannel
        refine recordUdp_deeds d data ?_ fun x hx => ?_
        · rw [ends_eq hchannel]
          exact List.mem_append_left _ List.mem_cons_self
        · rw [ends_eq hchannel, hx]
          exact List.mem_append_left _ (List.mem_cons_of_mem _ List.mem_cons_self)
      · exact .nothing s _ _

theorem datagram_deeds (d : Direction) (data : ByteArray) (peer : SocketAddress) (s : Session) (w : σ) :
    s.Deeds sink now (.datagram d data peer) w (s.datagram sink now d data peer w) := by
  unfold datagram
  split
  · exact payload_deeds d data rfl s w
  · refine Deeds.andThen (ensureActive_deeds rfl s w) ?_
    split
    · exact .nothing _ _ _
    · split
      · exact .nothing _ _ _
      · refine Deeds.andThen (.nothing _ _ _) ?_
        dsimp only [quiet]
        split
        · rename_i near far hchannel
          refine recordUdp_deeds d data ?_ fun x hx => ?_
          · rw [ends_eq hchannel]
            exact List.mem_append_left _ List.mem_cons_self
          · cases hx
            exact List.mem_append_right _ List.mem_cons_self
        · exact .nothing _ _ _

theorem shutdown_deeds (d : Direction) (s : Session) (w : σ) :
    s.Deeds sink now (.shutdown d) w (s.shutdown d w) := by
  unfold shutdown
  split
  · rename_i flow hinitiator hflow
    exact .single (.marks d rfl hinitiator (s.flow?_eq_some_iff.mp hflow))
  · exact .nothing s w []

theorem error_deeds (s : Session) (w : σ) : s.Deeds sink now e w (s.error sink now w) := by
  unfold error
  split
  · exact .nothing s w []
  · split
    · rename_i flow hwriting hchannel
      refine Deeds.andThen ?_ (finish_deeds _ _)
      rw [bareRecords_eq]
      refine writeBatch_deeds fun p hp => ?_
      rw [ends_eq hchannel]
      exact List.subset_append_of_subset_left _ (flow.ends_reset _ p hp)
    · exact finish_deeds s w

theorem close_deeds (s : Session) (w : σ) : s.Deeds sink now e w (s.close sink now w) := by
  unfold close
  split
  · exact .nothing s w _
  · split
    · rename_i flow hwriting hchannel
      have hsame : flow.SameEnds (flow.close s.closeInitiator).2 := flow.sameEnds_close _
      have hcounts : SessionDeed sink now e (s, w) _ :=
        .counts (.inl (s.isWriting_iff.mp hwriting)) hchannel hsame
      refine Deeds.andThen ((ReflTransGen.single hcounts).trans ?_) (finish_deeds _ _)
      rw [bareRecords_eq]
      refine writeBatch_deeds fun p hp => ?_
      have hends := flow.ends_close s.closeInitiator p hp
      rw [← hsame.ends] at hends
      exact List.subset_append_of_subset_left _ hends
    · exact finish_deeds s w

/-- What every deed keeps, they keep together. -/
theorem Deeds.keeps {P : Session × σ → Prop} {r : Reply σ} (h : s.Deeds sink now e w r)
    (hdeed : ∀ x y, SessionDeed sink now e x y → P x → P y) (hs : P (s, w)) :
    P (r.session, r.sink) := by
  unfold Deeds at h
  generalize (r.session, r.sink) = y at h
  induction h with
  | refl => exact hs
  | tail _ hlast ih => exact hdeed _ _ hlast ih

/-- **Every operation is one deed after another.** -/
theorem handle_deeds (now : Timestamp) (e : Event) (s : Session) (w : σ) :
    s.Deeds sink now e w (s.handle sink now e w) := by
  cases e with
  | active connection => exact activate_deeds s w
  | payload d data => exact payload_deeds d data rfl s w
  | datagram d data peer => exact datagram_deeds d data peer s w
  | shutdown d => exact shutdown_deeds d s w
  | error => exact error_deeds s w
  | close => exact close_deeds s w
  | pause =>
      change s.Deeds sink now .pause w (s.pause w)
      unfold pause
      split
      · exact .single (.pauses rfl ‹_›)
      · exact .nothing s w _
  | resume =>
      change s.Deeds sink now .resume w (s.resume w)
      unfold resume
      split
      · exact .single (.resumes rfl ‹_›)
      · exact .nothing s w _

end Session

end Wiretap
